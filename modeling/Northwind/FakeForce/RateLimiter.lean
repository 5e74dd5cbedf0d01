import Mathlib.Algebra.Order.Floor.Ring
import Mathlib.Algebra.Order.Field.Rat
import Mathlib.Data.List.Induction
import Mathlib.Data.Rat.Floor
import Mathlib.Tactic.Linarith

/-!
# The rolling rate limit

The middleware keeps the times of the requests it has accepted during the last
60 seconds.  Where there are as many as the limit it answers 429, with the
seconds until the oldest of them is dropped as `Retry-After`.

The seconds are cut to a whole number.  What is proved of the window holds at
all times; the promise of `Retry-After` is kept where nothing was cut off.

Times are the numbers of any ordered field with a floor.
-/

namespace Northwind
namespace FakeForce

/-- What the rate limiter answers; a limit of zero finds no oldest request. -/
inductive RateAnswer where
  | accepted
  | rejected (retryAfter : Int)
  | failed
deriving DecidableEq

variable {K : Type} [Field K] [LinearOrder K]

/-! ## Times -/

/-- `[t for t in _request_times if now - t < 60]` -/
def recent (now : K) (times : List K) : List K :=
  times.filter (fun t => now - t < 60)

section Recent

variable {now : K} {times times' : List K}

@[simp] theorem mem_recent {t : K} : t ∈ recent now times ↔ t ∈ times ∧ now - t < 60 := by
  simp [recent]

theorem recent_append : recent now (times ++ times') = recent now times ++ recent now times' :=
  List.filter_append _ _

variable [IsStrictOrderedRing K]

/-- What is not recent at one time is not recent later. -/
theorem recent_recent {earlier : K} (h : earlier ≤ now) :
    recent now (recent earlier times) = recent now times := by
  rw [recent, recent, List.filter_filter]
  refine List.filter_congr fun t _ => ?_
  rw [Bool.and_eq_left_iff_imp]
  intro hrecent
  rw [decide_eq_true_iff] at hrecent ⊢
  linarith

/-- A full list has room again when its oldest time drops out. -/
theorem length_recent_lt_iff {limit : Nat} {oldest : K} (hfull : times.length = limit)
    (holdest : times.min? = some oldest) :
    (recent now times).length < limit ↔ oldest + 60 ≤ now := by
  obtain ⟨hmem, hle⟩ := List.min?_eq_some_iff.mp holdest
  rw [← hfull, recent, List.length_filter_lt_length_iff_exists]
  constructor
  · rintro ⟨t, ht, hold⟩
    have hage : 60 ≤ now - t := not_lt.mp (by simpa using hold)
    linarith [hle t ht]
  · intro hretry
    refine ⟨oldest, hmem, ?_⟩
    have hage : 60 ≤ now - oldest := by linarith
    simpa using hage

end Recent

/-! ## Requests -/

variable [FloorRing K]

/-- `int(x)` -/
def truncated (x : K) : Int :=
  if 0 ≤ x then ⌊x⌋ else ⌈x⌉

/-- `max(1, int(60 - (now - oldest)))` -/
def retryAfter (now oldest : K) : Int :=
  max 1 (truncated (60 - (now - oldest)))

/-- The rate limit of `chaos_middleware`: the times it keeps, and its answer. -/
def limitRate (limit : Nat) (times : List K) (now : K) : List K × RateAnswer :=
  let times := recent now times
  if times.length ≥ limit then
    match times.min? with
    | some oldest => (times, .rejected (retryAfter now oldest))
    | none => (times, .failed)
  else (times ++ [now], .accepted)

/-! ## Histories -/

/-- `_request_times` after the requests of a history. -/
def requestTimes (limit : Nat) (past : List K) : List K :=
  past.foldl (fun times now => (limitRate limit times now).1) []

/-- The answer to a request that follows a history. -/
def answer (limit : Nat) (past : List K) (now : K) : RateAnswer :=
  (limitRate limit (requestTimes limit past) now).2

/-- The requests that are accepted after a history. -/
def acceptedAfter (limit : Nat) : List K → List K → List K
  | _, [] => []
  | past, now :: rest =>
      if answer limit past now = .accepted then
        now :: acceptedAfter limit (past ++ [now]) rest
      else acceptedAfter limit (past ++ [now]) rest

/-- The accepted requests of a history. -/
def acceptedTimes (limit : Nat) (requests : List K) : List K :=
  acceptedAfter limit [] requests

/-- No window of 60 seconds has more accepted requests than the limit. -/
def WindowsBounded (limit : Nat) (requests : List K) : Prop :=
  ∀ start, ((acceptedTimes limit requests).filter
    (fun t => start ≤ t ∧ t < start + 60)).length ≤ limit

/-- Every rejected request is accepted when it is repeated after its `Retry-After`,
with no other request accepted in between. -/
def RetriesAccepted (limit : Nat) (requests : List K) : Prop :=
  ∀ past now rest seconds, requests = past ++ now :: rest →
    answer limit past now = .rejected seconds →
    ∀ between retry, (past ++ now :: (between ++ [retry])).Pairwise (· ≤ ·) →
      acceptedAfter limit (past ++ [now]) between = [] → now + seconds ≤ retry →
        answer limit (past ++ now :: between) retry = .accepted

/-- Where a request is rejected, the oldest of the requests that count was accepted
a whole number of seconds ago, or at least 59 seconds ago. -/
def WholeAges (limit : Nat) (requests : List K) : Prop :=
  ∀ past now rest seconds, requests = past ++ now :: rest →
    answer limit past now = .rejected seconds →
    ∀ oldest, (recent now (acceptedTimes limit past)).min? = some oldest →
      Int.fract (now - oldest) = 0 ∨ 59 ≤ now - oldest

section Histories

variable {limit : Nat} {past requests times : List K} {now : K}

theorem limitRate_cases (limit : Nat) (times : List K) (now : K) :
    ((recent now times).length < limit ∧
      limitRate limit times now = (recent now times ++ [now], .accepted)) ∨
    (limit ≤ (recent now times).length ∧ (limitRate limit times now).1 = recent now times ∧
      (limitRate limit times now).2 ≠ .accepted) := by
  by_cases hfull : limit ≤ (recent now times).length
  · refine .inr ⟨hfull, ?_⟩
    cases hmin : (recent now times).min? <;> simp [limitRate, hfull, hmin]
  · exact .inl ⟨Nat.lt_of_not_le hfull, by simp [limitRate, hfull]⟩

theorem requestTimes_concat :
    requestTimes limit (past ++ [now]) =
      (limitRate limit (requestTimes limit past) now).1 := by
  rw [requestTimes, List.foldl_append]
  rfl

theorem requestTimes_of_accepted (h : answer limit past now = .accepted) :
    (recent now (requestTimes limit past)).length < limit ∧
      requestTimes limit (past ++ [now]) = recent now (requestTimes limit past) ++ [now] := by
  rw [requestTimes_concat]
  rcases limitRate_cases limit (requestTimes limit past) now with
    ⟨hlt, heq⟩ | ⟨_, _, hne⟩
  · exact ⟨hlt, by rw [heq]⟩
  · exact absurd h hne

theorem requestTimes_of_not_accepted (h : answer limit past now ≠ .accepted) :
    limit ≤ (recent now (requestTimes limit past)).length ∧
      requestTimes limit (past ++ [now]) = recent now (requestTimes limit past) := by
  rw [requestTimes_concat]
  rcases limitRate_cases limit (requestTimes limit past) now with
    ⟨_, heq⟩ | ⟨hle, heq, _⟩
  · exact absurd (by rw [answer, heq]) h
  · exact ⟨hle, heq⟩

/-- A request is accepted where fewer than the limit count. -/
theorem answer_eq_accepted_iff :
    answer limit past now = .accepted ↔ (recent now (requestTimes limit past)).length < limit := by
  refine ⟨fun h => (requestTimes_of_accepted h).1, fun h => ?_⟩
  by_contra hne
  exact (requestTimes_of_not_accepted hne).1.not_gt h

theorem acceptedAfter_concat (limit : Nat) (past requests : List K) (now : K) :
    acceptedAfter limit past (requests ++ [now]) =
      acceptedAfter limit past requests ++
        if answer limit (past ++ requests) now = .accepted then [now] else [] := by
  induction requests generalizing past with
  | nil =>
      rw [List.nil_append, List.append_nil, acceptedAfter, acceptedAfter]
      split <;> rfl
  | cons request requests ih =>
      rw [List.cons_append, acceptedAfter, acceptedAfter, ih, List.append_assoc,
        List.singleton_append]
      split <;> rfl

theorem acceptedTimes_concat (limit : Nat) (past : List K) (now : K) :
    acceptedTimes limit (past ++ [now]) =
      acceptedTimes limit past ++ if answer limit past now = .accepted then [now] else [] := by
  rw [acceptedTimes, acceptedAfter_concat, List.nil_append, acceptedTimes]

/-- The kept times never outgrow the limit. -/
theorem length_requestTimes_le (limit : Nat) (past : List K) :
    (requestTimes limit past).length ≤ limit := by
  induction past using List.reverseRecOn with
  | nil => exact Nat.zero_le _
  | append_singleton past request ih =>
      by_cases haccepted : answer limit past request = .accepted
      · obtain ⟨hlt, heq⟩ := requestTimes_of_accepted haccepted
        rw [heq, List.length_append, List.length_singleton]
        exact hlt
      · rw [(requestTimes_of_not_accepted haccepted).2]
        exact (List.length_filter_le _ _).trans ih

/-- A rejection has found a full list with an oldest time. -/
theorem rejected_cases {seconds : Int} (h : answer limit past now = .rejected seconds) :
    ∃ oldest, (recent now (requestTimes limit past)).min? = some oldest ∧
      seconds = retryAfter now oldest ∧
        (recent now (requestTimes limit past)).length = limit := by
  have hne : answer limit past now ≠ .accepted := by
    rw [h]
    simp
  have hfull := (requestTimes_of_not_accepted hne).1
  have hle := (List.length_filter_le (fun t => now - t < 60) (requestTimes limit past)).trans
    (length_requestTimes_le limit past)
  cases hmin : (recent now (requestTimes limit past)).min? with
  | none => simp [answer, limitRate, hfull, hmin] at h
  | some oldest =>
      simp only [answer, limitRate, ge_iff_le, hfull, hmin, if_true] at h
      exact ⟨oldest, rfl, (RateAnswer.rejected.inj h).symm, le_antisymm hle hfull⟩

variable [IsStrictOrderedRing K]

/-- The times that are kept are the accepted ones, as far as they count. -/
theorem recent_requestTimes (hsorted : (past ++ [now]).Pairwise (· ≤ ·)) :
    recent now (requestTimes limit past) = recent now (acceptedTimes limit past) := by
  induction past using List.reverseRecOn generalizing now with
  | nil => rfl
  | append_singleton past request ih =>
      have hbefore := List.pairwise_append.mp hsorted
      have hle : request ≤ now := hbefore.2.2 request (by simp) now (by simp)
      have hpast : (past ++ [now]).Pairwise (· ≤ ·) := by
        refine hsorted.sublist ?_
        rw [List.append_assoc]
        exact (List.Sublist.refl past).append (List.sublist_cons_self _ _)
      rw [acceptedTimes_concat]
      by_cases haccepted : answer limit past request = .accepted
      · rw [(requestTimes_of_accepted haccepted).2, if_pos haccepted, recent_append,
          recent_append, recent_recent hle, ih hpast]
      · rw [(requestTimes_of_not_accepted haccepted).2, if_neg haccepted, List.append_nil,
          recent_recent hle, ih hpast]

/-- One more request keeps the windows bounded. -/
theorem WindowsBounded.concat (hsorted : (past ++ [now]).Pairwise (· ≤ ·))
    (h : WindowsBounded limit past) : WindowsBounded limit (past ++ [now]) := by
  intro start
  rw [acceptedTimes_concat]
  by_cases haccepted : answer limit past now = .accepted
  · rw [if_pos haccepted, List.filter_append]
    by_cases hinside : start ≤ now ∧ now < start + 60
    · -- what else is in the window counts when the request is accepted
      have hsub : ((acceptedTimes limit past).filter
          (fun t => start ≤ t ∧ t < start + 60)).length ≤
            (recent now (acceptedTimes limit past)).length := by
        refine (List.monotone_filter_right _ fun t ht => ?_).length_le
        simp only [decide_eq_true_eq] at ht ⊢
        linarith [ht.1, hinside.2]
      have hlt := (requestTimes_of_accepted haccepted).1
      rw [recent_requestTimes hsorted] at hlt
      rw [List.length_append, List.filter_cons_of_pos (by simpa using hinside)]
      simp only [List.filter_nil, List.length_singleton]
      omega
    · rw [List.filter_cons_of_neg (by simpa using hinside), List.filter_nil, List.append_nil]
      exact h start
  · rw [if_neg haccepted, List.append_nil]
    exact h start

theorem windowsBounded (hsorted : requests.Pairwise (· ≤ ·)) : WindowsBounded limit requests := by
  induction requests using List.reverseRecOn with
  | nil => exact fun _ => Nat.zero_le _
  | append_singleton past now ih =>
      exact (ih (List.pairwise_append.mp hsorted).1).concat hsorted

/-! ## Retries -/

/-- Until something is accepted, the kept times only drop out. -/
theorem recent_requestTimes_of_none {between : List K} {retry : K}
    (hnone : acceptedAfter limit past between = [])
    (hle : ∀ t, t ∈ between → t ≤ retry) :
    recent retry (requestTimes limit (past ++ between)) =
      recent retry (requestTimes limit past) := by
  induction between using List.reverseRecOn with
  | nil => rw [List.append_nil]
  | append_singleton between request ih =>
      rw [acceptedAfter_concat] at hnone
      obtain ⟨hnone, hrequest⟩ := List.append_eq_nil_iff.mp hnone
      have hrejected : answer limit (past ++ between) request ≠ .accepted := by
        intro haccepted
        rw [if_pos haccepted] at hrequest
        cases hrequest
      rw [← List.append_assoc, (requestTimes_of_not_accepted hrejected).2,
        recent_recent (hle request (by simp))]
      exact ih hnone fun t ht => hle t (List.mem_append_left _ ht)

/-- The seconds of a rejection reach to the end of the minute of the oldest request
where nothing is cut off. -/
theorem le_retryAfter_iff {oldest : K} (hage : now - oldest < 60) :
    oldest + 60 ≤ now + retryAfter now oldest ↔
      Int.fract (now - oldest) = 0 ∨ 59 ≤ now - oldest := by
  have hpos : 0 ≤ 60 - (now - oldest) := by linarith
  have hfloor : ⌊60 - (now - oldest)⌋ = 60 + ⌊-(now - oldest)⌋ := by
    have h := Int.floor_intCast_add (60 : ℤ) (-(now - oldest))
    push_cast at h
    rw [← h, sub_eq_add_neg]
  have hwhole : Int.fract (now - oldest) = 0 ↔
      60 - (now - oldest) ≤ ⌊60 - (now - oldest)⌋ := by
    rw [hfloor, ← Int.fract_neg_eq_zero, Int.fract]
    push_cast
    have hle := Int.floor_le (-(now - oldest))
    exact ⟨fun h => by linarith, fun h => by linarith⟩
  rw [hwhole, retryAfter, truncated, if_pos hpos]
  push_cast
  constructor
  · intro h
    rcases le_max_iff.mp (show 60 - (now - oldest) ≤ max 1 (⌊60 - (now - oldest)⌋ : K) by
      linarith) with hone | hall
    · exact .inr (by linarith)
    · exact .inl hall
  · rintro (h | h)
    · linarith [le_max_right (1 : K) ⌊60 - (now - oldest)⌋]
    · linarith [le_max_left (1 : K) ⌊60 - (now - oldest)⌋]

/-- A retry with nothing accepted in between is accepted from the end of the minute
of the oldest request on. -/
theorem retry_accepted_iff {seconds : Int} {between : List K} {oldest retry : K}
    (hsorted : (past ++ now :: (between ++ [retry])).Pairwise (· ≤ ·))
    (hrejected : answer limit past now = .rejected seconds)
    (holdest : (recent now (requestTimes limit past)).min? = some oldest)
    (hnone : acceptedAfter limit (past ++ [now]) between = []) :
    answer limit (past ++ now :: between) retry = .accepted ↔ oldest + 60 ≤ retry := by
  obtain ⟨_, _, _, hfull⟩ := rejected_cases hrejected
  have hne : answer limit past now ≠ .accepted := by
    rw [hrejected]
    simp
  have htail := (List.pairwise_append.mp hsorted).2.1
  have hbetween : ∀ t, t ∈ between → t ≤ retry := fun t ht =>
    (List.pairwise_append.mp (List.pairwise_cons.mp htail).2).2.2 t ht retry (by simp)
  have hnow : now ≤ retry := (List.pairwise_cons.mp htail).1 retry (by simp)
  rw [answer_eq_accepted_iff, ← List.singleton_append, ← List.append_assoc,
    recent_requestTimes_of_none hnone hbetween, (requestTimes_of_not_accepted hne).2]
  exact length_recent_lt_iff hfull holdest

theorem retriesAccepted_iff (hsorted : requests.Pairwise (· ≤ ·)) :
    RetriesAccepted limit requests ↔ WholeAges limit requests := by
  have hkept : ∀ {past : List K} {now : K} {rest : List K}, requests = past ++ now :: rest →
      recent now (acceptedTimes limit past) = recent now (requestTimes limit past) := by
    rintro past now rest rfl
    refine (recent_requestTimes (hsorted.sublist ?_)).symm
    exact (List.Sublist.refl past).append (List.cons_sublist_cons.mpr (List.nil_sublist _))
  constructor
  · intro h past now rest seconds hrequests hrejected oldest holdest
    rw [hkept hrequests] at holdest
    obtain ⟨oldest', holdest', rfl, _⟩ := rejected_cases hrejected
    obtain rfl := Option.some.inj (holdest.symm.trans holdest')
    have hage := (mem_recent.mp (List.min?_eq_some_iff.mp holdest).1).2
    rw [← le_retryAfter_iff hage]
    -- a retry at the promised second
    have hpast : (past ++ now :: ([] ++ [now + (retryAfter now oldest : K)])).Pairwise
        (· ≤ ·) := by
      have hnow : now ≤ now + (retryAfter now oldest : K) := by
        have hpos : (0 : ℤ) ≤ retryAfter now oldest := zero_le_one.trans (le_max_left _ _)
        have hcast : (0 : K) ≤ (retryAfter now oldest : K) := by exact_mod_cast hpos
        linarith
      rw [hrequests] at hsorted
      obtain ⟨hbefore, _, hacross⟩ := List.pairwise_append.mp hsorted
      refine List.pairwise_append.mpr ⟨hbefore, by simpa using hnow, fun t ht u hu => ?_⟩
      have htnow := hacross t ht now (by simp)
      rcases List.mem_cons.mp hu with rfl | hu
      · exact htnow
      · rw [List.nil_append, List.mem_singleton] at hu
        exact hu ▸ htnow.trans hnow
    exact (retry_accepted_iff hpast hrejected holdest rfl).mp
      (h past now rest _ hrequests hrejected [] _ hpast rfl le_rfl)
  · intro h past now rest seconds hrequests hrejected between retry hsorted' hnone hretry
    obtain ⟨oldest, holdest, rfl, _⟩ := rejected_cases hrejected
    have hage := (mem_recent.mp (List.min?_eq_some_iff.mp holdest).1).2
    have hwhole := h past now rest _ hrequests hrejected oldest (by rwa [hkept hrequests])
    rw [retry_accepted_iff hsorted' hrejected holdest hnone]
    exact ((le_retryAfter_iff hage).mpr hwhole).trans hretry

/-- The windows are bounded in every history; waiting for `Retry-After` is enough
in exactly the histories where no part of a second is cut off. -/
theorem waiting_is_enough_iff (hlimit : 1 ≤ limit) (hsorted : requests.Pairwise (· ≤ ·)) :
    (∀ past now rest, requests = past ++ now :: rest → answer limit past now ≠ .failed) ∧
      WindowsBounded limit requests ∧
        (RetriesAccepted limit requests ↔ WholeAges limit requests) := by
  refine ⟨fun past now rest _ hfailed => ?_, windowsBounded hsorted, retriesAccepted_iff hsorted⟩
  have hne : answer limit past now ≠ .accepted := by
    rw [hfailed]
    simp
  have hfull := (requestTimes_of_not_accepted hne).1
  cases hmin : (recent now (requestTimes limit past)).min? with
  | none =>
      rw [List.min?_eq_none_iff.mp hmin, List.length_nil] at hfull
      omega
  | some oldest => simp [answer, limitRate, hfull, hmin] at hfailed

end Histories

/-- One request accepted, the next one rejected after a whole number of seconds. -/
theorem waiting_is_enough_iff_wholeSeconds :
    WindowsBounded 1 [(0 : ℚ), 20] ∧
      (RetriesAccepted 1 [(0 : ℚ), 20] ↔ WholeAges 1 [(0 : ℚ), 20]) :=
  (waiting_is_enough_iff (K := ℚ) le_rfl (by norm_num)).2

/-- Half a second after the accepted request, 59 seconds are promised: half a
second too few. -/
theorem retry_rejected :
    ¬ RetriesAccepted 1 [(0 : ℚ), 1 / 2] := by
  intro h
  have hsecond : answer 1 [(0 : ℚ)] (1 / 2) = .rejected 59 := by decide +kernel
  have hretry := h [0] (1 / 2) [] 59 rfl hsecond [] (119 / 2) (by norm_num) rfl (by norm_num)
  revert hretry
  decide +kernel

end FakeForce
end Northwind
