import SessionDispatch.Proofs.Session.Routes

/-!
# Who is in the handler

The lock of a session keeps a second dispatcher out of the handler for this session. It does not
keep two sessions of one key apart: a session may leave the table while a dispatcher is in the
handler for it, and the next record of its peer goes to a new session, with a lock of its own.
-/

namespace SessionDispatch.Dispatchers

variable {h : Handler} {s s' : Dispatchers} {a : Act} {acts : List Act}

/-! ## The lock of a session -/

/-- No two dispatchers are in the handler for one session. -/
def Exclusive (s : Dispatchers) : Prop :=
  ∀ (d e : Nat) (p q : Packet) (id : Nat) (created created' : Bool),
    s.stages[d]? = some (.handling p id created) → s.stages[e]? = some (.handling q id created') →
      d = e

theorem exclusive_start (manager : SessionManager) (now : Instant) (count : Nat) :
    (start manager now count).Exclusive := by
  intro d e p q id created created' hd
  cases List.eq_of_mem_replicate (List.mem_of_getElem? hd)

/-- A dispatcher that comes into the handler found the lock free. -/
theorem isLocked_of_goes {old : Stage} {p : Packet} {id : Nat} {created : Bool} {l : Ledger}
    (hg : Goes h s a old (.handling p id created) l) : s.isLocked id = false := by
  cases hg with
  | enter _ hl => exact hl

theorem Exclusive.act (hx : s.Exclusive) (ha : act h s a = some s') : s'.Exclusive := by
  intro d e p q id created created' hd he
  obtain ⟨f, old, new, -, hf, hg, hst⟩ | ⟨-, hst, -⟩ := stages_act ha
  · rw [hst, List.getElem?_set] at hd he
    split_ifs at hd he with hfd _ hfe _ hfe
    · exact hfd.symm.trans hfe
    · obtain rfl := Option.some.inj hd
      exact absurd (isLocked_eq_true.mpr ⟨e, q, created', he⟩)
        (Bool.eq_false_iff.mp (isLocked_of_goes hg))
    · obtain rfl := Option.some.inj he
      exact absurd (isLocked_eq_true.mpr ⟨d, p, created, hd⟩)
        (Bool.eq_false_iff.mp (isLocked_of_goes hg))
    · exact hx d e p q id created created' hd he
  · rw [hst] at hd he
    exact hx d e p q id created created' hd he

/-! ## Sessions that nothing removes -/

/-- The table holds every session that was made. -/
def Whole (s : Dispatchers) : Prop :=
  ∀ (id : Nat) (x : Session), s.manager.sessions[id]? = some x →
    s.manager.table.find? x.key = some id

theorem Whole.act (hs : s.Sound) (hw : s.Whole) (hrem : a.removes = false)
    (ha : act h s a = some s') :
    s'.Whole := by
  intro id y hy
  obtain ⟨hmap, -⟩ | ⟨p, -, ht, hn⟩ := registry_act hs ha
  · obtain ⟨x, hx, hk, -⟩ := getElem?_of_map_whose hmap hy
    rw [← hk]
    exact entry_act hs (hw id x hx) hrem ha
  · rw [hn, List.getElem?_append] at hy
    split_ifs at hy with hid
    · exact entry_act hs (hw id y hy) hrem ha
    · obtain ⟨hlt, rfl⟩ := List.getElem?_eq_some_iff.mp hy
      rw [List.length_singleton] at hlt
      obtain rfl : id = s.manager.sessions.length := by omega
      rw [ht, Table.find?_insert]
      simp

/-! ## Two calls at once -/

/-- Two dispatchers in the handler work on different sessions. Only if a session of their key
was removed meanwhile can the sessions be of one key, and the table has then let the older of
them go. -/
theorem handled_sessions_differ (h : Handler) (family : Family) (order : Discipline)
    (policy : ExpiryPolicy) (now : Instant) (count : Nat) (acts : List Act)
    (hr : run h (start (.new family order policy) now count) acts = some s) {d e : Nat}
    (hde : d ≠ e) {p q : Packet} {i j : Nat} {created created' : Bool}
    (hd : s.stages[d]? = some (.handling p i created))
    (he : s.stages[e]? = some (.handling q j created')) :
    i ≠ j ∧ (p.key = q.key →
      s.manager.table.find? p.key ≠ some (min i j) ∧ ∃ a ∈ acts, a.removes = true) := by
  obtain ⟨hs, hrouted⟩ := routed_run (sound_start ..) (routed_start ..) hr
  have hx : s.Exclusive :=
    Run.invariant Exclusive (fun _ _ _ hx ha => hx.act ha) (exclusive_start _ _ _) hr
  have hij : i ≠ j := by
    rintro rfl
    exact hde (hx d e p q i created created' hd he)
  obtain ⟨x, hi, hxk⟩ := hrouted.fits d _ hd
  obtain ⟨y, hj, hyk⟩ := hrouted.fits e _ he
  refine ⟨hij, fun hpq => ⟨fun hfind => ?_, ?_⟩⟩
  · have hli := hrouted.last p.key _ hfind i x hi hxk
    have hlj := hrouted.last p.key _ hfind j y hj (hyk.trans hpq.symm)
    omega
  · by_contra! hnone
    obtain ⟨-, hw⟩ := Run.invariant_of_forall (fun s => s.Sound ∧ s.Whole)
      (fun _ _ _ hrem hs ha => ⟨hs.1.act ha, hs.2.act hs.1 hrem ha⟩)
      (fun a ha => Bool.eq_false_iff.mpr (hnone a ha)) ⟨sound_start .., nofun⟩ hr
    have hfi := hw i x hi
    have hfj := hw j y hj
    rw [hxk, hpq, ← hyk, hfj] at hfi
    exact hij (Option.some.inj hfi).symm

/-- The session of a peer expires while a dispatcher is in the handler for it, and another
dispatcher takes the next record of that peer. -/
def overtaken : List Act :=
  [.arrive ⟨.v4 .loopback 500, [1]⟩, .arrive ⟨.v4 .loopback 500, [2]⟩, .take 0, .route 0, .decide 0,
    .arm 0, .disarm 0, .enter 0, .tick (.ofSecs 3), .pass, .expire 0, .take 1, .route 1, .decide 1,
    .arm 1, .disarm 1, .enter 1]

theorem run_overtaken :
    ∃ s, run .echo (start (.new .v4 .fifo .default) 7 2) overtaken = some s ∧
      s.stages =
        [.handling ⟨.v4 .loopback 500, [1]⟩ 0 true, .handling ⟨.v4 .loopback 500, [2]⟩ 1 true] := by
  obtain ⟨s, hr⟩ : ∃ s, run .echo (start (.new .v4 .fifo .default) 7 2) overtaken = some s :=
    Option.isSome_iff_exists.mp (by cbv)
  have hst : (run .echo (start (.new .v4 .fifo .default) 7 2) overtaken).map stages =
      some [.handling ⟨.v4 .loopback 500, [1]⟩ 0 true,
        .handling ⟨.v4 .loopback 500, [2]⟩ 1 true] := by cbv
  rw [hr, Option.map_some, Option.some.injEq] at hst
  exact ⟨s, hr, hst⟩

theorem handled_sessions_differ_overtaken :
    ∃ s, run .echo (start (.new .v4 .fifo .default) 7 2) overtaken = some s ∧ (0 : Nat) ≠ 1 ∧
      s.manager.table.find? (.ofAddress (.v4 .loopback 500)) ≠ some 0 ∧
        ∃ a ∈ overtaken, a.removes = true := by
  obtain ⟨s, hr, hst⟩ := run_overtaken
  obtain ⟨hne, hkey⟩ :=
    handled_sessions_differ .echo .v4 .fifo .default 7 2 overtaken hr (d := 0) (e := 1)
    (by decide) (by rw [hst]; rfl) (by rw [hst]; rfl)
  exact ⟨s, hr, hne, hkey rfl⟩

/-- So it is not true that the handler is called for one record of a key at a time. -/
theorem not_one_call_at_a_time :
    ¬ ∀ (h : Handler) (family : Family) (order : Discipline) (policy : ExpiryPolicy) (now : Instant)
        (count : Nat) (acts : List Act) (s : Dispatchers),
      run h (start (.new family order policy) now count) acts = some s →
        ∀ (d e : Nat) (p q : Packet) (i j : Nat) (created created' : Bool),
          s.stages[d]? = some (.handling p i created) →
            s.stages[e]? = some (.handling q j created') → p.key = q.key → d = e := by
  intro hall
  obtain ⟨s, hr, hst⟩ := run_overtaken
  have h01 := hall .echo .v4 .fifo .default 7 2 overtaken s hr 0 1 ⟨.v4 .loopback 500, [1]⟩
      ⟨.v4 .loopback 500, [2]⟩
    0 1 true true (by rw [hst]; rfl) (by rw [hst]; rfl) rfl
  cases h01

end SessionDispatch.Dispatchers
