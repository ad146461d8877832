import InferenceRouter.Health.Staleness
import InferenceRouter.Semantics.Run

/-! The task of the health checks, among everything else that touches the backends.
In a round all of them are checked at once, and the next round waits for the last.
A step is what runs between two awaits: no other task writes what a check writes. -/
namespace InferenceRouter

open Semantics

/-- What the second request of a check comes to. -/
abbrev MetricsReply := Option (StatusCode × Option String)

/-- What requests change of a backend. -/
structure Traffic where
  breaker : CircuitBreaker
  activeConnections : Nat
  ewmaLatencyUs : Nat

/-- What was scraped is the answer to the second request. -/
theorem Check.scraped_eq_some {check : Check} {text : String} (h : check.scraped = some text) :
    check.passed = true ∧ ∃ status, check.metrics = some (status, some text) ∧ status.isSuccess = true := by
  rw [Check.scraped] at h
  split at h
  · rename_i hPassed
    obtain ⟨⟨status, body⟩, hMetrics, hBody⟩ := Option.bind_eq_some_iff.mp h
    have hSome : (if status.isSuccess then body else none) = some text := hBody
    obtain ⟨hStatus, rfl⟩ := Option.ite_none_right_eq_some.mp hSome
    exact ⟨hPassed, status, hMetrics, hStatus⟩
  · cases h

namespace Backend

def withTraffic (self : Backend) (traffic : Traffic) : Backend :=
  { self with
    breaker := traffic.breaker
    activeConnections := traffic.activeConnections
    ewmaLatencyUs := traffic.ewmaLatencyUs }

def traffic (self : Backend) : Traffic := ⟨self.breaker, self.activeConnections, self.ewmaLatencyUs⟩

/-- The part of `check_one` after the metrics were asked for. -/
def recordScrape (self : Backend) : MetricsReply → Backend
  | some (status, body) =>
      if status.isSuccess then
        match body with
        | some text => self.applyScrape text
        | none => self.resetScraped
      else self.resetScraped
  | none => self.resetScraped

variable {config : HealthCheckConfig} {self : Backend}

theorem checkOne_of_passed {check : Check} (h : check.passed = true) :
    self.checkOne config check = (self.recordProbe config true).2.recordScrape check.metrics := by
  have hHealthy : check.health.elim false StatusCode.isSuccess = true := h
  simp only [checkOne, hHealthy, recordProbe, Bool.not_true, Bool.false_eq_true, if_false]
  rfl

theorem checkOne_of_failed {check : Check} (h : check.passed = false) :
    self.checkOne config check = (self.recordProbe config false).2 := by
  have hHealthy : check.health.elim false StatusCode.isSuccess = false := h
  simp only [checkOne, hHealthy, recordProbe, Bool.not_false, if_true]

/-- What was answered decides which of the two happens, and nothing else does. -/
theorem recordScrape_cases (reply : MetricsReply) :
    (∃ text, ∀ self : Backend, self.recordScrape reply = self.applyScrape text) ∨
      ∀ self : Backend, self.recordScrape reply = self.resetScraped := by
  match reply with
  | none => exact .inr fun _ => rfl
  | some (status, body) =>
      cases hStatus : status.isSuccess with
      | false => exact .inr fun _ => by simp [recordScrape, hStatus]
      | true =>
          cases body with
          | none => exact .inr fun _ => by simp [recordScrape, hStatus]
          | some text => exact .inl ⟨text, fun _ => by simp [recordScrape, hStatus]⟩

theorem recordScrape_switch (self : Backend) (reply : MetricsReply) :
    (self.recordScrape reply).switch = self.switch := by
  rcases recordScrape_cases reply with ⟨text, hApply⟩ | hReset
  · rw [hApply, applyScrape_eq]
    rfl
  · rw [hReset]
    rfl

theorem checkOne_switch (config : HealthCheckConfig) (self : Backend) (check : Check) :
    (self.checkOne config check).switch =
      self.switch.observe config.healthyThreshold.toNat config.unhealthyThreshold.toNat check.passed := by
  cases hPassed : check.passed with
  | true =>
      rw [checkOne_of_passed hPassed, ← applyProbeResult_switch, recordScrape_switch]
      rfl
  | false =>
      rw [checkOne_failed hPassed, ← applyProbeResult_switch]
      split <;> rfl

theorem applyProbeResult_withTraffic (config : HealthCheckConfig) (self : Backend) (traffic : Traffic)
    (healthy : Bool) : (self.withTraffic traffic).applyProbeResult config healthy =
      (self.applyProbeResult config healthy).withTraffic traffic := by
  rw [applyProbeResult_eq, applyProbeResult_eq]
  rfl

theorem recordProbe_withTraffic (config : HealthCheckConfig) (self : Backend) (traffic : Traffic) (healthy : Bool) :
    (self.withTraffic traffic).recordProbe config healthy =
      (healthy, (self.recordProbe config healthy).2.withTraffic traffic) := by
  have hHealthy : ((self.applyProbeResult config healthy).withTraffic traffic).isHealthy =
      (self.applyProbeResult config healthy).isHealthy := rfl
  simp only [recordProbe, applyProbeResult_withTraffic, hHealthy]
  cases !healthy && !(self.applyProbeResult config healthy).isHealthy <;> rfl

theorem recordScrape_withTraffic (self : Backend) (traffic : Traffic) (reply : MetricsReply) :
    (self.withTraffic traffic).recordScrape reply = (self.recordScrape reply).withTraffic traffic := by
  rcases recordScrape_cases reply with ⟨text, hApply⟩ | hReset
  · rw [hApply, hApply, applyScrape_eq, applyScrape_eq]
    rfl
  · rw [hReset, hReset]
    rfl

/-- A recent value is the one of the last scrape. -/
theorem ScrapedValue.Recent.last_scrape {value : ScrapedValue} {checks : List Check}
    (h : value.Recent config checks self) (hStored : value.stored self ≠ 0) :
    ∃ status text, ((checks.filter Check.passed).map Check.metrics).getLast? = some (some (status, some text)) ∧
      status.isSuccess = true ∧ value.stored self = value.reported text ∧
      self.consecutiveHealthFailures < max config.unhealthyThreshold.toNat 1 := by
  obtain ⟨before, last, text, after, rfl, hScraped, hValue, hFailed, hCount, hFew, -⟩ := h hStored
  obtain ⟨hPassed, status, hMetrics, hStatus⟩ := Check.scraped_eq_some hScraped
  have hNone : after.filter Check.passed = [] :=
    List.filter_eq_nil_iff.mpr fun later hLater => by simp [hFailed later hLater]
  have hLast : ((before ++ last :: after).filter Check.passed).map Check.metrics =
      (before.filter Check.passed).map Check.metrics ++ [some (status, some text)] := by
    simp [hPassed, hNone, hMetrics]
  exact ⟨status, text, by rw [hLast, List.getLast?_concat], hStatus, hValue, hCount ▸ hFew⟩

end Backend

/-- Where the check of a backend is: it waits for `/health`, it has passed and waits
for `/metrics`, or it is done. -/
inductive CheckPhase where
  | probing
  | scraping
  | checked
  deriving DecidableEq, Repr

structure CheckedBackend where
  backend : Backend
  phase : CheckPhase

structure HealthTask where
  backends : List CheckedBackend
  /-- `join_all` has not returned yet. -/
  inRound : Bool

inductive HealthEvent where
  | tick
  | probed (i : Nat) (health : Option StatusCode)
  | scraped (i : Nat) (reply : MetricsReply)
  | joined
  /-- Requests, selections and scrapes of the router do anything else. -/
  | traffic (i : Nat) (traffic : Traffic)

namespace HealthEvent

def isTick : HealthEvent → Bool
  | .tick => true
  | _ => false

/-- Whether the probe of backend `i` passed, if this is its answer. -/
def probeOf (i : Nat) : HealthEvent → Option Bool
  | .probed j health => if j = i then some (health.elim false StatusCode.isSuccess) else none
  | _ => none

def scrapeOf (i : Nat) : HealthEvent → Option MetricsReply
  | .scraped j reply => if j = i then some reply else none
  | _ => none

def trafficOf (i : Nat) : HealthEvent → Option Traffic
  | .traffic j left => if j = i then some left else none
  | _ => none

end HealthEvent

/-- What requests have left of backend `i`: what the last of them did, if any came. -/
def trafficLeft (fresh : Backend) (i : Nat) (events : List HealthEvent) : Traffic :=
  (events.filterMap (HealthEvent.trafficOf i)).getLast?.getD fresh.traffic

theorem trafficLeft_concat_of_none (fresh : Backend) {i : Nat} {event : HealthEvent} (h : event.trafficOf i = none)
    (events : List HealthEvent) : trafficLeft fresh i (events ++ [event]) = trafficLeft fresh i events := by
  simp [trafficLeft, h]

theorem trafficLeft_concat_traffic (fresh : Backend) (i : Nat) (traffic : Traffic) (events : List HealthEvent) :
    trafficLeft fresh i (events ++ [.traffic i traffic]) = traffic := by
  simp [trafficLeft, HealthEvent.trafficOf]

namespace HealthTask

def start (backends : List Backend) : HealthTask where
  backends := backends.map fun backend => ⟨backend, .checked⟩
  inRound := false

def setBackend (self : HealthTask) (i : Nat) (entry : CheckedBackend) : HealthTask :=
  { self with backends := self.backends.set i entry }

/-- `spawn_health_checker`, one step of its loop or of a check. -/
def act (config : HealthCheckConfig) (self : HealthTask) : HealthEvent → Option HealthTask
  | .tick =>
      if self.inRound then none
      else some { backends := self.backends.map fun entry => { entry with phase := .probing }, inRound := true }
  | .probed i health =>
      match self.backends[i]? with
      | some ⟨backend, .probing⟩ =>
          let (passed, backend) := backend.recordProbe config (health.elim false StatusCode.isSuccess)
          some (self.setBackend i ⟨backend, if passed then .scraping else .checked⟩)
      | _ => none
  | .scraped i reply =>
      match self.backends[i]? with
      | some ⟨backend, .scraping⟩ => some (self.setBackend i ⟨backend.recordScrape reply, .checked⟩)
      | _ => none
  | .joined =>
      if self.inRound && self.backends.all (·.phase = .checked) then some { self with inRound := false } else none
  | .traffic i traffic =>
      match self.backends[i]? with
      | some entry => some (self.setBackend i { entry with backend := entry.backend.withTraffic traffic })
      | none => none

def Step (config : HealthCheckConfig) (s : HealthTask) (event : HealthEvent) (t : HealthTask) : Prop :=
  s.act config event = some t

end HealthTask

/-- A backend as some checks one after another have left it, or with the probe of one
more: given what its probes and its scrapes came to, and what requests left of the rest. -/
inductive Serial (config : HealthCheckConfig) (fresh : Backend) :
    List Bool → List MetricsReply → Traffic → CheckedBackend → Prop where
  | between (checks : List Check) (traffic : Traffic) {phase : CheckPhase} (hPhase : phase ≠ .scraping) :
      Serial config fresh (checks.map Check.passed) ((checks.filter Check.passed).map Check.metrics) traffic
        ⟨(checks.foldl (Backend.checkOne config) fresh).withTraffic traffic, phase⟩
  | within (checks : List Check) (traffic : Traffic) :
      Serial config fresh (checks.map Check.passed ++ [true]) ((checks.filter Check.passed).map Check.metrics) traffic
        ⟨((checks.foldl (Backend.checkOne config) fresh).recordProbe config true).2.withTraffic traffic, .scraping⟩

namespace Serial

variable {config : HealthCheckConfig} {fresh backend : Backend} {probes : List Bool} {scrapes : List MetricsReply}
  {left : Traffic} {phase : CheckPhase} {entry : CheckedBackend}

theorem start (config : HealthCheckConfig) (fresh : Backend) :
    Serial config fresh [] [] fresh.traffic ⟨fresh, .checked⟩ :=
  .between [] fresh.traffic (by decide)

theorem tick (h : Serial config fresh probes scrapes left ⟨backend, .checked⟩) :
    Serial config fresh probes scrapes left ⟨backend, .probing⟩ := by
  cases h with
  | between checks => exact .between checks left (by decide)

theorem traffic (h : Serial config fresh probes scrapes left entry) (traffic : Traffic) :
    Serial config fresh probes scrapes traffic { entry with backend := entry.backend.withTraffic traffic } := by
  cases h with
  | between checks _ hPhase => exact .between checks traffic hPhase
  | within checks => exact .within checks traffic

theorem probe (h : Serial config fresh probes scrapes left ⟨backend, .probing⟩) (healthy : Bool) :
    Serial config fresh (probes ++ [healthy]) scrapes left
      ⟨(backend.recordProbe config healthy).2, if healthy then .scraping else .checked⟩ := by
  cases h with
  | between checks =>
      rw [Backend.recordProbe_withTraffic]
      cases healthy with
      | true => exact .within checks left
      | false =>
          let check : Check := ⟨none, none⟩
          have hFailed : check.passed = false := rfl
          have hNext : Serial config fresh _ _ _ ⟨_, .checked⟩ := between (checks ++ [check]) left (by decide)
          simpa [hFailed, List.foldl_append, Backend.checkOne_of_failed hFailed] using hNext

theorem scrape (h : Serial config fresh probes scrapes left ⟨backend, .scraping⟩) (reply : MetricsReply) :
    Serial config fresh probes (scrapes ++ [reply]) left ⟨backend.recordScrape reply, .checked⟩ := by
  cases h with
  | between _ _ hPhase => exact absurd rfl hPhase
  | within checks =>
      let check : Check := ⟨some ⟨200, by decide⟩, reply⟩
      have hPassed : check.passed = true := rfl
      have hNext : Serial config fresh _ _ _ ⟨_, .checked⟩ := between (checks ++ [check]) left (by decide)
      simpa [hPassed, List.foldl_append, Backend.checkOne_of_passed hPassed,
        Backend.recordScrape_withTraffic] using hNext

/-- The health of the backend is the one that its probes lead to. -/
theorem switch (hFresh : fresh.switch = .start) (h : Serial config fresh probes scrapes left entry) :
    entry.backend.switch = .run config.healthyThreshold.toNat config.unhealthyThreshold.toNat probes := by
  have hChecks (checks : List Check) : (checks.foldl (Backend.checkOne config) fresh).switch =
      .run config.healthyThreshold.toNat config.unhealthyThreshold.toNat (checks.map Check.passed) := by
    induction checks using List.reverseRecOn with
    | nil => exact hFresh
    | append_singleton checks check ih =>
        rw [List.foldl_append, List.foldl_cons, List.foldl_nil, Backend.checkOne_switch, ih, List.map_append,
          List.map_cons, List.map_nil, Switch.run_concat]
  cases h with
  | between checks => exact hChecks checks
  | within checks =>
      rw [Switch.run_concat, ← hChecks, ← Backend.applyProbeResult_switch]
      rfl

/-- Every probe that passed is followed by its scrape. -/
theorem count_probes (h : Serial config fresh probes scrapes left entry) :
    scrapes.length + (if entry.phase = .scraping then 1 else 0) = probes.count true := by
  have hChecks (checks : List Check) : ((checks.filter Check.passed).map Check.metrics).length =
      (checks.map Check.passed).count true := by
    rw [List.length_map, ← List.countP_eq_length_filter, List.count, List.countP_map]
    exact List.countP_congr fun check _ => by simp
  cases h with
  | between checks _ hPhase => rw [if_neg hPhase, hChecks, Nat.add_zero]
  | within checks => rw [if_pos rfl, hChecks, List.count_append, List.count_singleton_self]

/-- A value that is held was reported in the last scrape, and too few probes have
failed since then to mark down. -/
theorem fresh_of_stored_ne_zero {id : BackendId} {url : String} {weight : Nat} {breaker : CircuitBreaker}
    (value : Backend.ScrapedValue)
    (hTraffic : ∀ (b : Backend) (traffic : Traffic), value.stored (b.withTraffic traffic) = value.stored b)
    (h : Serial config (.new id url weight breaker) probes scrapes left entry) (hStored : value.stored entry.backend ≠ 0) :
    ∃ status text, scrapes.getLast? = some (some (status, some text)) ∧ status.isSuccess = true ∧
      value.stored entry.backend = value.reported text ∧
      trailing false probes < max config.unhealthyThreshold.toNat 1 := by
  have hBads := (Switch.run_counts config.healthyThreshold.toNat config.unhealthyThreshold.toNat probes).2
  rw [← h.switch rfl] at hBads
  cases h with
  | between checks =>
      rw [hTraffic] at hStored ⊢
      obtain ⟨status, text, hLast, hStatus, hValue, hFew⟩ :=
        (value.recent_foldl_checkOne config id url weight breaker checks).last_scrape hStored
      exact ⟨status, text, hLast, hStatus, hValue, hBads ▸ hFew⟩
  | within checks =>
      have hKept : ∀ b : Backend, value.stored (b.recordProbe config true).2 = value.stored b :=
        fun b => value.of_applyProbeResult config b true
      rw [hTraffic, hKept] at hStored ⊢
      obtain ⟨status, text, hLast, hStatus, hValue, -⟩ :=
        (value.recent_foldl_checkOne config id url weight breaker checks).last_scrape hStored
      refine ⟨status, text, hLast, hStatus, hValue, ?_⟩
      rw [trailing_concat_of_ne Bool.false_ne_true.symm]
      exact lt_max_of_lt_right Nat.one_pos

end Serial

/-- What is so of backend `i` after `events`, and of the round it is in. -/
structure Tracked (config : HealthCheckConfig) (fresh : Backend) (i : Nat) (events : List HealthEvent)
    (inRound : Bool) (entry : CheckedBackend) : Prop where
  serial : Serial config fresh (events.filterMap (HealthEvent.probeOf i))
    (events.filterMap (HealthEvent.scrapeOf i)) (trafficLeft fresh i events) entry
  counted : (events.filterMap (HealthEvent.probeOf i)).length + (if entry.phase = .probing then 1 else 0) =
    events.countP HealthEvent.isTick
  rested : inRound = false → entry.phase = .checked

namespace Tracked

variable {config : HealthCheckConfig} {fresh backend : Backend} {i : Nat} {events : List HealthEvent}
  {inRound : Bool} {phase : CheckPhase} {entry : CheckedBackend}

/-- An event of another backend. -/
theorem other {event : HealthEvent} (h : Tracked config fresh i events inRound entry)
    (hTick : event.isTick = false) (hProbe : event.probeOf i = none) (hScrape : event.scrapeOf i = none)
    (hTraffic : event.trafficOf i = none) : Tracked config fresh i (events ++ [event]) inRound entry := by
  obtain ⟨hSerial, hCounted, hRested⟩ := h
  constructor
  · simpa [hProbe, hScrape, trafficLeft_concat_of_none fresh hTraffic] using hSerial
  · simpa [hProbe, hTick] using hCounted
  · exact hRested

theorem tick (h : Tracked config fresh i events false entry) :
    Tracked config fresh i (events ++ [.tick]) true { entry with phase := .probing } := by
  obtain ⟨backend, phase⟩ := entry
  obtain ⟨hSerial, hCounted, hRested⟩ := h
  obtain rfl : phase = .checked := hRested rfl
  have hProbe : HealthEvent.probeOf i .tick = none := rfl
  have hScrape : HealthEvent.scrapeOf i .tick = none := rfl
  have hTraffic : HealthEvent.trafficOf i .tick = none := rfl
  constructor
  · simpa [hProbe, hScrape, trafficLeft_concat_of_none fresh hTraffic] using hSerial.tick
  · simpa [hProbe, HealthEvent.isTick] using hCounted
  · exact fun hRound => nomatch hRound

theorem probed (h : Tracked config fresh i events inRound ⟨backend, .probing⟩) (health : Option StatusCode) :
    let healthy := health.elim false StatusCode.isSuccess
    Tracked config fresh i (events ++ [.probed i health]) inRound
      ⟨(backend.recordProbe config healthy).2, if healthy then .scraping else .checked⟩ := by
  intro healthy
  obtain ⟨hSerial, hCounted, hRested⟩ := h
  have hProbe : HealthEvent.probeOf i (.probed i health) = some healthy := if_pos rfl
  have hScrape : HealthEvent.scrapeOf i (.probed i health) = none := rfl
  have hTraffic : HealthEvent.trafficOf i (.probed i health) = none := rfl
  constructor
  · simpa [hProbe, hScrape, trafficLeft_concat_of_none fresh hTraffic] using hSerial.probe healthy
  · have hPhase : (if healthy then CheckPhase.scraping else .checked) ≠ .probing := by
      cases healthy <;> decide
    simpa [hProbe, HealthEvent.isTick, hPhase] using hCounted
  · exact fun hRound => nomatch hRested hRound

theorem scraped (h : Tracked config fresh i events inRound ⟨backend, .scraping⟩) (reply : MetricsReply) :
    Tracked config fresh i (events ++ [.scraped i reply]) inRound ⟨backend.recordScrape reply, .checked⟩ := by
  obtain ⟨hSerial, hCounted, hRested⟩ := h
  have hProbe : HealthEvent.probeOf i (.scraped i reply) = none := rfl
  have hScrape : HealthEvent.scrapeOf i (.scraped i reply) = some reply := if_pos rfl
  have hTraffic : HealthEvent.trafficOf i (.scraped i reply) = none := rfl
  constructor
  · simpa [hProbe, hScrape, trafficLeft_concat_of_none fresh hTraffic] using hSerial.scrape reply
  · simpa [hProbe, HealthEvent.isTick] using hCounted
  · exact fun _ => rfl

theorem traffic (h : Tracked config fresh i events inRound entry) (traffic : Traffic) :
    Tracked config fresh i (events ++ [.traffic i traffic]) inRound
      { entry with backend := entry.backend.withTraffic traffic } := by
  obtain ⟨hSerial, hCounted, hRested⟩ := h
  have hProbe : HealthEvent.probeOf i (.traffic i traffic) = none := rfl
  have hScrape : HealthEvent.scrapeOf i (.traffic i traffic) = none := rfl
  constructor
  · simpa [hProbe, hScrape, trafficLeft_concat_traffic] using hSerial.traffic traffic
  · simpa [hProbe, HealthEvent.isTick] using hCounted
  · exact hRested

end Tracked

theorem RouterConfig.of_mem_buildBackends {config : RouterConfig} {now i : Nat} {fresh : Backend}
    (h : (config.buildBackends now)[i]? = some fresh) :
    ∃ url weight, fresh = .new i url weight (.fromConfig now config.circuitBreaker) := by
  rw [RouterConfig.buildBackends, List.getElem?_map, List.getElem?_zipIdx] at h
  obtain ⟨_, hEntry, rfl⟩ := Option.map_eq_some_iff.mp h
  obtain ⟨backend, -, rfl⟩ := Option.map_eq_some_iff.mp hEntry
  exact ⟨backend.normalizedUrl, backend.weight.toNat, by rw [Nat.zero_add]⟩

namespace HealthTask

variable {config : HealthCheckConfig} {fresh : List Backend} {events : List HealthEvent} {s t : HealthTask}

/-- Every backend is tracked. -/
def Sound (config : HealthCheckConfig) (fresh : List Backend) (events : List HealthEvent) (self : HealthTask) : Prop :=
  ∀ (i : Nat) (backend : Backend), fresh[i]? = some backend →
    ∃ entry, self.backends[i]? = some entry ∧ Tracked config backend i events self.inRound entry

theorem sound_start (config : HealthCheckConfig) (fresh : List Backend) : Sound config fresh [] (start fresh) := by
  intro i backend hFresh
  refine ⟨⟨backend, .checked⟩, by simp [start, hFresh], ?_, rfl, fun _ => rfl⟩
  exact .start config backend

/-- An event of backend `j` leaves the others as they are. -/
theorem Sound.setBackend {event : HealthEvent} {j : Nat} {old new : CheckedBackend}
    (h : s.Sound config fresh events) (hOld : s.backends[j]? = some old) (hTick : event.isTick = false)
    (hOther : ∀ i, i ≠ j → event.probeOf i = none ∧ event.scrapeOf i = none ∧ event.trafficOf i = none)
    (hOwn : ∀ backend, Tracked config backend j events s.inRound old →
      Tracked config backend j (events ++ [event]) s.inRound new) :
    (s.setBackend j new).Sound config fresh (events ++ [event]) := by
  intro i backend hFresh
  obtain ⟨entry, hEntry, hTracked⟩ := h i backend hFresh
  by_cases hIndex : i = j
  · subst hIndex
    obtain rfl : old = entry := Option.some.inj (hOld.symm.trans hEntry)
    obtain ⟨hBound, -⟩ := List.getElem?_eq_some_iff.mp hOld
    exact ⟨new, List.getElem?_set_self hBound, hOwn backend hTracked⟩
  · obtain ⟨hProbe, hScrape, hTraffic⟩ := hOther i hIndex
    refine ⟨entry, (List.getElem?_set_ne (Ne.symm hIndex)).trans hEntry, ?_⟩
    exact hTracked.other hTick hProbe hScrape hTraffic

/-- Every step keeps track. -/
theorem Sound.step {event : HealthEvent} (h : s.Sound config fresh events) (hStep : Step config s event t) :
    t.Sound config fresh (events ++ [event]) := by
  have hAct : s.act config event = some t := hStep
  cases event with
  | tick =>
      rw [act, Option.ite_none_left_eq_some] at hAct
      obtain ⟨hRest, hNext⟩ := hAct
      obtain rfl := Option.some.inj hNext
      intro i backend hFresh
      obtain ⟨entry, hEntry, hTracked⟩ := h i backend hFresh
      rw [Bool.not_eq_true] at hRest
      rw [hRest] at hTracked
      exact ⟨{ entry with phase := .probing }, by simp [hEntry], hTracked.tick⟩
  | probed j health =>
      rw [act] at hAct
      split at hAct
      · rename_i backend hOld
        obtain rfl := Option.some.inj hAct
        refine h.setBackend hOld rfl (fun i hIndex => ?_) fun _ hTracked => hTracked.probed health
        simp [HealthEvent.probeOf, HealthEvent.scrapeOf, HealthEvent.trafficOf, Ne.symm hIndex]
      · cases hAct
  | scraped j reply =>
      rw [act] at hAct
      split at hAct
      · rename_i backend hOld
        obtain rfl := Option.some.inj hAct
        refine h.setBackend hOld rfl (fun i hIndex => ?_) fun _ hTracked => hTracked.scraped reply
        simp [HealthEvent.probeOf, HealthEvent.scrapeOf, HealthEvent.trafficOf, Ne.symm hIndex]
      · cases hAct
  | joined =>
      rw [act, Option.ite_none_right_eq_some] at hAct
      obtain ⟨hJoined, hNext⟩ := hAct
      obtain rfl := Option.some.inj hNext
      rw [Bool.and_eq_true, List.all_eq_true] at hJoined
      intro i backend hFresh
      obtain ⟨entry, hEntry, hTracked⟩ := h i backend hFresh
      have hChecked : entry.phase = .checked := by
        simpa using hJoined.2 entry (List.mem_of_getElem? hEntry)
      have hNow : Tracked config backend i (events ++ [.joined]) s.inRound entry := hTracked.other rfl rfl rfl rfl
      exact ⟨entry, hEntry, hNow.serial, hNow.counted, fun _ => hChecked⟩
  | traffic j traffic =>
      rw [act] at hAct
      split at hAct
      · rename_i entry hOld
        obtain rfl := Option.some.inj hAct
        refine h.setBackend hOld rfl (fun i hIndex => ?_) fun _ hTracked => hTracked.traffic traffic
        simp [HealthEvent.probeOf, HealthEvent.scrapeOf, HealthEvent.trafficOf, Ne.symm hIndex]
      · cases hAct

/-- In every run and every order of the answers, each backend is as its own checks one
after another leave it, and as requests left the rest: one check for each tick, with one
scrape for each probe that passed.
The flag is the one its probes lead to, and no scraped value is older than the last
scrape or survives enough failures to mark down. -/
theorem checks_serial (config : RouterConfig) (now : Nat) {events : List HealthEvent} {task : HealthTask}
    (run : Run (Step config.healthCheck) (start (config.buildBackends now)) events task)
    {i : Nat} {fresh : Backend} (hFresh : (config.buildBackends now)[i]? = some fresh) :
    let probes := events.filterMap (HealthEvent.probeOf i)
    let scrapes := events.filterMap (HealthEvent.scrapeOf i)
    let rise := config.healthCheck.healthyThreshold.toNat
    let fall := config.healthCheck.unhealthyThreshold.toNat
    ∃ entry, task.backends[i]? = some entry ∧
      Serial config.healthCheck fresh probes scrapes (trafficLeft fresh i events) entry ∧
      probes.length + (if entry.phase = .probing then 1 else 0) = events.countP HealthEvent.isTick ∧
      scrapes.length + (if entry.phase = .scraping then 1 else 0) = probes.count true ∧
      (task.inRound = false → entry.phase = .checked) ∧
      (entry.backend.isHealthy = false ↔ Switch.OffAfter (max rise 1) (max fall 1) probes) ∧
      ∀ value ∈ [Backend.ScrapedValue.queueDepth, .kvCacheUsageBp], value.stored entry.backend ≠ 0 →
        ∃ status text, scrapes.getLast? = some (some (status, some text)) ∧ status.isSuccess = true ∧
          value.stored entry.backend = value.reported text ∧ trailing false probes < max fall 1 := by
  intro probes scrapes rise fall
  have hSound : task.Sound config.healthCheck (config.buildBackends now) events :=
    run.history (Sound config.healthCheck _) (fun _ _ _ _ _ h hStep => h.step hStep) (sound_start _ _)
  obtain ⟨entry, hEntry, hSerial, hCounted, hRested⟩ := hSound i fresh hFresh
  obtain ⟨url, weight, rfl⟩ := config.of_mem_buildBackends hFresh
  refine ⟨entry, hEntry, hSerial, hCounted, hSerial.count_probes, hRested, ?_, ?_⟩
  · have hSwitch : entry.backend.switch = .run rise fall probes := hSerial.switch rfl
    have hOff := Switch.run_on_eq_false_iff rise fall probes
    rw [← hSwitch] at hOff
    exact hOff
  · intro value hValue
    rw [List.mem_pair] at hValue
    rcases hValue with rfl | rfl
    · exact hSerial.fresh_of_stored_ne_zero _ fun _ _ => rfl
    · exact hSerial.fresh_of_stored_ne_zero _ fun _ _ => rfl

/-- The first of two backends reports a queue and then fails three times. -/
theorem checks_serial_outage :
    let config : RouterConfig := {
      routing := { strategy := "least_load" }
      backends := [⟨"http://a:8000", 1⟩, ⟨"http://b:8000", 1⟩] }
    let ok : StatusCode := ⟨200, by decide⟩
    let report := "vllm:num_requests_waiting 7"
    let outage : List HealthEvent :=
      [.tick, .probed 0 none, .probed 1 (some ok), .scraped 1 (some (ok, some report)), .joined]
    let events := [.tick, .probed 1 (some ok), .probed 0 (some ok), .scraped 0 (some (ok, some report)),
      .scraped 1 (some (ok, none)), .joined] ++ outage ++ outage ++ outage
    ∃ task, Run (Step config.healthCheck) (start (config.buildBackends 0)) events task ∧
      ∃ entry, task.backends[0]? = some entry ∧ entry.phase = .checked ∧ entry.backend.isHealthy = false ∧
        entry.backend.queueDepth = 0 := by
  intro config ok report outage events
  have hRuns : (events.foldlM (act config.healthCheck) (start (config.buildBackends 0))).map inRound = some false := by
    decide +kernel
  obtain ⟨task, hTask, hRest⟩ := Option.map_eq_some_iff.mp hRuns
  have hRun : Run (Step config.healthCheck) (start (config.buildBackends 0)) events task := .of_foldlM hTask
  obtain ⟨entry, hEntry, -, -, -, hRested, hOff, hFresh⟩ := checks_serial config 0 hRun (i := 0) rfl
  refine ⟨task, hRun, entry, hEntry, hRested hRest, ?_, ?_⟩
  · exact hOff.mpr ⟨[true, false, false, false], [], rfl, by decide, by decide⟩
  · by_contra hQueue
    obtain ⟨_, _, -, -, -, hFew⟩ := hFresh .queueDepth (List.mem_cons_self ..) hQueue
    exact absurd hFew (by decide)

end HealthTask

end InferenceRouter
