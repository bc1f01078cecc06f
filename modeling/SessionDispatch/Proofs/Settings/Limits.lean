import Mathlib
import SessionDispatch.Settings.Validation

/-!
# Limits of valid settings

Valid settings serve some family, and their counts are small enough that nothing computed from them
wraps around.
-/

namespace SessionDispatch

theorem SettingError.ifHolds_eq_nil {condition : Bool} {e : SettingError} :
    ifHolds condition e = [] ↔ condition = false := by
  cases condition <;> simp [ifHolds]

namespace Settings

variable {s : Settings}

/-- The limits that count loops and threads. -/
structure Limited (s : Settings) : Prop where
  families : s.network.families ≠ []
  endpoints : 1 ≤ s.netio.endpointsPerFamily.toNat ∧ s.netio.endpointsPerFamily.toNat ≤ 256
  dispatchers : 1 ≤ s.dispatch.dispatchersPerFamily.toNat ∧
    s.dispatch.dispatchersPerFamily.toNat ≤ 256
  threads : 1 ≤ s.runtime.poolThreads.toNat ∧ s.runtime.poolThreads.toNat ≤ 1024

theorem checkSections_of_valid (hv : s.check.errors = []) : s.checkSections.errors = [] := by
  unfold check at hv
  dsimp only at hv
  split_ifs at hv with hsections
  · exact hsections
  · exact absurd hv hsections

theorem check_warnings (hv : s.check.errors = []) :
    s.check.warnings = s.checkSections.warnings ++ s.limitWarnings := by
  rw [check, if_pos (checkSections_of_valid hv)]

theorem toNat_bounds {n : UInt64} {limit : UInt64} (hpos : decide (n = 0) = false)
    (hle : decide (limit < n) = false) :
    1 ≤ n.toNat ∧ n.toNat ≤ limit.toNat := by
  constructor
  · refine Nat.one_le_iff_ne_zero.mpr fun hzero => of_decide_eq_false hpos ?_
    exact UInt64.toNat_inj.mp hzero
  · exact UInt64.le_iff_toNat_le.mp (UInt64.not_lt.mp (of_decide_eq_false hle))

theorem limited_of_valid (hv : s.check.errors = []) : s.Limited := by
  have hsections := checkSections_of_valid hv
  change ((((s.network.check.errors ++ s.netio.check.errors) ++ s.dispatch.check.errors) ++
    s.runtime.check.errors) ++
    s.telemetry.check.errors) = [] at hsections
  simp only [List.append_eq_nil_iff] at hsections
  obtain ⟨⟨⟨⟨hnetwork, hnetio⟩, hdispatch⟩, hruntime⟩, -⟩ := hsections
  refine ⟨?_, ?_, ?_, ?_⟩
  · simp only [NetworkSettings.check, List.append_eq_nil_iff, SettingError.ifHolds_eq_nil]
      at hnetwork
    have hsome := hnetwork.1.1
    intro hnone
    have hfour : s.network.enableIpv4 = false := by
      have hout := List.filter_eq_nil_iff.mp hnone .v4 (by simp)
      exact Bool.eq_false_iff.mpr hout
    have hsix : s.network.enableIpv6 = false := by
      have hout := List.filter_eq_nil_iff.mp hnone .v6 (by simp)
      exact Bool.eq_false_iff.mpr hout
    rw [hfour, hsix] at hsome
    cases hsome
  · simp only [NetIoSettings.check, List.append_eq_nil_iff, SettingError.ifHolds_eq_nil] at hnetio
    exact toNat_bounds hnetio.1.1.1.1.1 hnetio.1.1.1.1.2
  · unfold DispatchSettings.check at hdispatch
    by_cases hzero : s.dispatch.dispatchersPerFamily = 0
    · rw [if_pos hzero] at hdispatch
      cases hdispatch
    by_cases hmany : 256 < s.dispatch.dispatchersPerFamily
    · rw [if_neg hzero, if_pos hmany] at hdispatch
      cases hdispatch
    exact toNat_bounds (decide_eq_false hzero) (decide_eq_false hmany)
  · simp only [RuntimeSettings.check, List.append_eq_nil_iff, SettingError.ifHolds_eq_nil]
      at hruntime
    exact toNat_bounds hruntime.1.1.1.1.1 hruntime.1.1.1.1.2

namespace Limited

variable (hs : s.Limited)
include hs

theorem length_families : 1 ≤ s.network.families.length ∧ s.network.families.length ≤ 2 := by
  constructor
  · exact List.length_pos_of_ne_nil hs.families
  · exact List.length_filter_le _ [Family.v4, .v6]

theorem loops_le : s.network.families.length *
    (2 * s.netio.endpointsPerFamily.toNat + s.dispatch.dispatchersPerFamily.toNat) ≤ 1536 := by
  have hendpoints := hs.endpoints.2
  have hdispatchers := hs.dispatchers.2
  calc s.network.families.length *
    (2 * s.netio.endpointsPerFamily.toNat + s.dispatch.dispatchersPerFamily.toNat)
      ≤ 2 * 768 := Nat.mul_le_mul hs.length_families.2 (by omega)
    _ = 1536 := rfl

/-- Nothing on the way to the count of the loops wraps around. -/
theorem toNat_longRunning : s.longRunning.toNat =
      s.network.families.length *
        (2 * s.netio.endpointsPerFamily.toNat + s.dispatch.dispatchersPerFamily.toNat) + 2 := by
  have hfamilies := hs.length_families.2
  have hendpoints := hs.endpoints.2
  have hdispatchers := hs.dispatchers.2
  have hcount : s.familyCount.toNat = s.network.families.length := by
    unfold familyCount
    rw [Nat.toUInt64, UInt64.toNat_ofNat', Nat.mod_eq_of_lt (by omega)]
  have hloops : (2 * s.netio.endpointsPerFamily).toNat = 2 * s.netio.endpointsPerFamily.toNat := by
    rw [UInt64.toNat_mul]
    exact Nat.mod_eq_of_lt (by change 2 * _ < _; omega)
  have hfamily : (2 * s.netio.endpointsPerFamily + s.dispatch.dispatchersPerFamily).toNat =
      2 * s.netio.endpointsPerFamily.toNat + s.dispatch.dispatchersPerFamily.toNat := by
    rw [UInt64.toNat_add, hloops]
    exact Nat.mod_eq_of_lt (by omega)
  have hle := hs.loops_le
  have hall :
      (s.familyCount * (2 * s.netio.endpointsPerFamily + s.dispatch.dispatchersPerFamily)).toNat =
      s.network.families.length *
        (2 * s.netio.endpointsPerFamily.toNat + s.dispatch.dispatchersPerFamily.toNat) := by
    rw [UInt64.toNat_mul, hcount, hfamily]
    exact Nat.mod_eq_of_lt (by omega)
  rw [longRunning, UInt64.toNat_add, hall]
  exact Nat.mod_eq_of_lt (by change _ + 2 < _; omega)

theorem toNat_longRunning_le : s.longRunning.toNat ≤ 1538 := by
  have hle := hs.loops_le
  rw [hs.toNat_longRunning]
  omega

theorem toNat_threads :
    (s.runtime.poolThreads + s.longRunning).toNat =
    s.runtime.poolThreads.toNat + s.longRunning.toNat := by
  have hthreads := hs.threads.2
  have hloops := hs.toNat_longRunning_le
  rw [UInt64.toNat_add]
  exact Nat.mod_eq_of_lt (by omega)

theorem toNat_idleLimit :
    (s.netio.endpointsPerFamily * 4).toNat = s.netio.endpointsPerFamily.toNat * 4 := by
  have hendpoints := hs.endpoints.2
  rw [UInt64.toNat_mul]
  exact Nat.mod_eq_of_lt (by change _ * 4 < _; omega)

end Limited

/-- Valid settings are warned of a low threshold if and only if it does not exceed the count of
the loops. -/
theorem eagerGrowth_mem_iff (hv : s.check.errors = []) :
    .eagerGrowth s.runtime.growthThreshold s.longRunning ∈ s.check.warnings ↔
      s.runtime.growthThreshold.toNat ≤ s.longRunning.toNat := by
  have hnetwork :
      .eagerGrowth s.runtime.growthThreshold s.longRunning ∉ s.network.check.warnings := by
    unfold NetworkSettings.check
    dsimp only
    split_ifs <;> simp
  have hdispatch :
      .eagerGrowth s.runtime.growthThreshold s.longRunning ∉ s.dispatch.check.warnings := by
    unfold DispatchSettings.check
    split_ifs <;> simp
  have hother :
      .eagerGrowth s.runtime.growthThreshold s.longRunning ∉ s.checkSections.warnings := by
    change _ ∉ ((((s.network.check.warnings ++ []) ++ s.dispatch.check.warnings) ++ []) ++ [])
    simp [hnetwork, hdispatch]
  rw [check_warnings hv, List.mem_append, or_iff_right hother, limitWarnings,
    ← UInt64.le_iff_toNat_le]
  by_cases hlow : s.runtime.growthThreshold ≤ s.longRunning
  · simp [hlow]
  · simp [hlow]

end Settings

end SessionDispatch
