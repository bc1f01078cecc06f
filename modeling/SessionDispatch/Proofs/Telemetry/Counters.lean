import Mathlib
import SessionDispatch.Telemetry.Metrics

/-!
# What events do to the counters

Nine counters only grow: each is the sum of what the events add to it, wrapped at 64 bits, in
whatever order they come. The gauge of active endpoints stops at zero, so it depends on the order.
It tells the starts without the ends as long as no end comes before its start, and the gauge of the
pool tells the greatest number reported.
-/

namespace SessionDispatch

/-! ## Counters that only grow -/

inductive Counter
  | packetsReceived
  | bytesReceived
  | packetsSent
  | bytesSent
  | receiveErrors
  | sendErrors
  | sessionsCreated
  | sessionsExpired
  | timersFired
deriving DecidableEq, Repr

namespace Counter

def read (s : Snapshot) : Counter → UInt64
  | packetsReceived => s.packetsReceived
  | bytesReceived => s.bytesReceived
  | packetsSent => s.packetsSent
  | bytesSent => s.bytesSent
  | receiveErrors => s.receiveErrors
  | sendErrors => s.sendErrors
  | sessionsCreated => s.sessionsCreated
  | sessionsExpired => s.sessionsExpired
  | timersFired => s.timersFired

def weight : Counter → Metric → Nat
  | packetsReceived, .packetReceived _ => 1
  | bytesReceived, .packetReceived bytes => bytes
  | packetsSent, .packetSent _ => 1
  | bytesSent, .packetSent bytes => bytes
  | receiveErrors, .receiveError => 1
  | sendErrors, .sendError => 1
  | sessionsCreated, .sessionCreated => 1
  | sessionsExpired, .sessionExpired => 1
  | timersFired, .timerFired => 1
  | _, _ => 0

def total (c : Counter) (events : List Metric) : Nat := (events.map c.weight).sum

variable {s : Snapshot} {events : List Metric}

theorem read_record (c : Counter) (s : Snapshot) (e : Metric) :
    c.read (s.record e) = c.read s + (c.weight e).toUInt64 := by
  cases c <;> cases e <;> first | rfl | exact (UInt64.add_zero _).symm

theorem read_drain (c : Counter) (s : Snapshot) (events : List Metric) :
    c.read (s.drain events) = c.read s + (c.total events).toUInt64 := by
  induction events generalizing s with
  | nil => exact (UInt64.add_zero _).symm
  | cons e events ih =>
      have htotal : c.total (e :: events) = c.weight e + c.total events := List.sum_cons
      calc c.read (s.drain (e :: events))
          = c.read (s.record e) + (c.total events).toUInt64 := ih (s.record e)
        _ = c.read s + ((c.weight e).toUInt64 + (c.total events).toUInt64) := by
            rw [read_record, UInt64.add_assoc]
        _ = c.read s + (c.total (e :: events)).toUInt64 := by
            rw [htotal]
            exact congrArg (c.read s + ·) (UInt64.ofNat_add _ _).symm

/-- A counter that starts at zero is the sum of what the events add to it. -/
theorem toNat_read_drain (c : Counter) (events : List Metric) :
    (c.read (Snapshot.drain {} events)).toNat = c.total events % 2 ^ 64 := by
  have hzero : c.read {} = 0 := by cases c <;> rfl
  rw [read_drain, hzero, UInt64.zero_add]
  exact UInt64.toNat_ofNat'

end Counter

namespace Metric

/-! ## Receive loops that started and ended -/

/-- What an event says about the number of receive loops that run. -/
def change : Metric → Int
  | endpointStarted => 1
  | endpointStopped => -1
  | _ => 0

/-- How many receive loops have started and not ended. -/
def balance (events : List Metric) : Int := (events.map change).sum

theorem balance_append (a b : List Metric) : balance (a ++ b) = balance a + balance b := by
  rw [balance, List.map_append, List.sum_append]
  rfl

theorem balance_singleton (e : Metric) : balance [e] = e.change := List.sum_singleton

end Metric

namespace Snapshot

open SessionDispatch.Metric

variable {s : Snapshot} {events : List Metric}

theorem activeEndpoints_record {e : Metric} (hlow : 0 ≤ (s.activeEndpoints.toNat : Int) + e.change)
    (hhigh : (s.activeEndpoints.toNat : Int) + e.change < 2 ^ 64) :
    ((s.record e).activeEndpoints.toNat : Int) = s.activeEndpoints.toNat + e.change := by
  cases e with
  | endpointStarted =>
      change ((s.activeEndpoints + 1).toNat : Int) = _
      simp only [change] at hhigh ⊢
      rw [UInt64.toNat_add, UInt64.toNat_one, Nat.mod_eq_of_lt (by omega)]
      rfl
  | endpointStopped =>
      simp only [change] at hlow ⊢
      have hone : 1 ≤ s.activeEndpoints := by
        rw [UInt64.le_iff_toNat_le, UInt64.toNat_one]
        omega
      have hne : s.activeEndpoints ≠ 0 := by
        rintro h
        rw [h] at hone
        exact absurd hone (by decide)
      change ((if s.activeEndpoints = 0 then 0 else s.activeEndpoints - 1).toNat : Int) = _
      rw [if_neg hne, UInt64.toNat_sub_of_le _ _ hone, UInt64.toNat_one]
      omega
  | _ => exact (Int.add_zero _).symm

/-- The gauge follows the starts and the ends while no end comes before its start and the
starts fit. -/
theorem activeEndpoints_drain (hlow : ∀ before, before <+: events → 0 ≤ balance before)
    (hhigh : ∀ before, before <+: events → balance before < 2 ^ 64) :
    ((drain {} events).activeEndpoints.toNat : Int) = balance events := by
  induction events using List.reverseRecOn with
  | nil => rfl
  | append_singleton events e ih =>
      have hprefix : events <+: events ++ [e] := List.prefix_append ..
      have hev := ih (fun b hb => hlow b (hb.trans hprefix)) fun b hb => hhigh b (hb.trans hprefix)
      have hall := balance_append events [e]
      rw [balance_singleton, ← hev] at hall
      rw [drain_append, hall]
      exact activeEndpoints_record (hall ▸ hlow _ List.prefix_rfl) (hall ▸ hhigh _ List.prefix_rfl)

/-! ## Workers -/

theorem toNat_poolWorkers_record (s : Snapshot) (workers : Nat) :
    (s.record (.poolGrew workers)).poolWorkers.toNat =
    max s.poolWorkers.toNat (workers % 2 ^ 64) := by
  have hw : workers.toUInt64.toNat = workers % 2 ^ 64 := UInt64.toNat_ofNat'
  change (if s.poolWorkers ≤ workers.toUInt64 then workers.toUInt64 else s.poolWorkers).toNat = _
  split_ifs with h <;> rw [UInt64.le_iff_toNat_le, hw] at h
  · rw [max_eq_right h, hw]
  · rw [max_eq_left (Nat.le_of_not_le h)]

theorem poolWorkers_drain_le (s : Snapshot) (events : List Metric) :
    s.poolWorkers.toNat ≤ (s.drain events).poolWorkers.toNat := by
  induction events generalizing s with
  | nil => exact le_rfl
  | cons e events ih =>
      refine le_trans ?_ (ih (s.record e))
      cases e with
      | poolGrew workers =>
          rw [toNat_poolWorkers_record]
          exact le_max_left _ _
      | _ => exact le_rfl

/-- No number of workers that was reported is greater than the gauge. -/
theorem le_poolWorkers_drain {workers : Nat} (h : .poolGrew workers ∈ events) :
    workers % 2 ^ 64 ≤ (s.drain events).poolWorkers.toNat := by
  obtain ⟨before, after, rfl⟩ := List.append_of_mem h
  calc workers % 2 ^ 64
      ≤ ((s.drain before).record (.poolGrew workers)).poolWorkers.toNat := by
        rw [toNat_poolWorkers_record]
        exact le_max_right _ _
    _ ≤ (((s.drain before).record (.poolGrew workers)).drain after).poolWorkers.toNat :=
      poolWorkers_drain_le _ after
    _ = (s.drain (before ++ .poolGrew workers :: after)).poolWorkers.toNat := by
        rw [drain_append]
        rfl

/-- The gauge is one of the numbers that were reported, or still where it was. -/
theorem poolWorkers_drain_eq (s : Snapshot) (events : List Metric) :
    (s.drain events).poolWorkers = s.poolWorkers ∨
      ∃ workers, .poolGrew workers ∈ events ∧
        (s.drain events).poolWorkers.toNat = workers % 2 ^ 64 := by
  induction events generalizing s with
  | nil => exact .inl rfl
  | cons e events ih =>
      cases ih (s.record e) with
      | inr h =>
          obtain ⟨workers, hmem, hw⟩ := h
          exact .inr ⟨workers, List.mem_cons_of_mem e hmem, hw⟩
      | inl h =>
          cases e with
          | poolGrew workers =>
              have hmax := toNat_poolWorkers_record s workers
              cases max_choice s.poolWorkers.toNat (workers % 2 ^ 64) with
              | inl hold => exact .inl (h.trans (UInt64.toNat.inj (hmax.trans hold)))
              | inr hnew =>
                  refine .inr ⟨workers, List.mem_cons_self, ?_⟩
                  exact (congrArg UInt64.toNat h).trans (hmax.trans hnew)
          | _ => exact .inl h

/-! ## Sessions -/

theorem toNat_sessionsActive (s : Snapshot) :
    s.sessionsActive.toNat = s.sessionsCreated.toNat - s.sessionsExpired.toNat := by
  unfold sessionsActive
  split_ifs with h
  · exact UInt64.toNat_sub_of_le _ _ h
  · rw [UInt64.le_iff_toNat_le] at h
    rw [UInt64.toNat_zero]
    omega

end Snapshot

end SessionDispatch
