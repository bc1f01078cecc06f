import SessionDispatch.Proofs.Daemon.Orders

/-!
# The way down

When every loop has been told to end, nothing new comes in, and an act that gets anything done
lowers the effort that is left. Until a daemon is down such an act is due. So a shutdown comes to
its end, however its loops take turns.
-/

namespace SessionDispatch.Daemon

variable {h : Handler} {network : Network} {crew : Nat} {d d' : Daemon} {ns : List Note}

/-! ## Everything that is kept account of -/

structure Accounted (crew : Nat) (d : Daemon) (ns : List Note) : Prop where
  staffed : d.Staffed crew (endings ns)
  held : d.Held (endings ns)
  balanced : d.Balanced ns
  wired : d.Wired
  told : d.Told

theorem Accounted.act (hd : d.Accounted crew ns) {a : Act} (ha : d.act h a = some d') :
    d'.Accounted crew (ns ++ (d.note? a).toList) := by
  have hstaffed := hd.staffed.act ha
  have hheld := hd.held.act hd.staffed.toManned ha
  rw [← endings_concat] at hstaffed hheld
  exact ⟨hstaffed, hheld, hd.balanced.act hd.held ha, hd.wired.act ha, hd.told.act ha⟩

theorem Accounted.run (hd : d.Accounted crew ns) {acts : List Act} (hrun : d.run h acts = some d') :
    d'.Accounted crew (ns ++ d.notes h acts) :=
  Run.invariant_observe note? (Accounted crew) (fun _ _ _ _ hd ha => hd.act ha) hd hrun

/-! ## When every loop was told to end -/

def Phase.isTold : Phase → Bool
  | .running | .stopping _ => false
  | _ => true

theorem Phase.Turn.isTold {phase phase' : Phase} (ht : Phase.Turn phase phase')
    (htold : phase.isTold = true) :
    phase'.isTold = true := by
  cases ht with
  | stays phase => exact htold
  | tells left hbefore => rcases hbefore with rfl | ⟨o, rfl⟩ <;> cases htold
  | joins joined failed failed' => rfl
  | closes joined failed threads => rfl
  | concludes joined failed threads dropped => rfl

namespace Told

theorem obeyed (hd : d.Told) (ht : d.phase.isTold = true) {o : Order} (ho : o ∈ d.orders) :
    d.Obeyed o := by
  refine (hd.given o ho).resolve_left fun hpending => ?_
  unfold pending at hpending
  split at hpending
  · rename_i hphase
    rw [hphase] at ht
    cases ht
  · rename_i hphase
    rw [hphase] at ht
    cases ht
  · cases hpending

theorem inbound_closed (hd : d.Told) (ht : d.phase.isTold = true) {family : Family}
    {q : Queue Packet} (hq : d.inbound? family = some q) : q.closed = true := by
  obtain ⟨m, hm, rfl⟩ := Option.map_eq_some_iff.mp hq
  obtain ⟨s, hs, hfamily⟩ := List.mem_map.mp (isSome_manager?_iff.mp (Option.isSome_of_mem hm))
  have ho : Order.closeInbound family ∈ d.orders :=
    mem_orders.mpr (.inr (.inr ⟨s, hs, .inl (hfamily ▸ rfl)⟩))
  obtain ⟨q, hq', hclosed⟩ := hd.obeyed ht ho
  exact Option.some.inj (hq.symm.trans hq') ▸ hclosed

theorem outbound_closed (hd : d.Told) (ht : d.phase.isTold = true) {family : Family}
    {q : Queue Packet} (hq : d.outbound? family = some q) : q.closed = true := by
  obtain ⟨m, hm, rfl⟩ := Option.map_eq_some_iff.mp hq
  obtain ⟨s, hs, hfamily⟩ := List.mem_map.mp (isSome_manager?_iff.mp (Option.isSome_of_mem hm))
  have ho : Order.closeOutbound family ∈ d.orders :=
    mem_orders.mpr (.inr (.inr ⟨s, hs, .inr (.inl (hfamily ▸ rfl))⟩))
  obtain ⟨q, hq', hclosed⟩ := hd.obeyed ht ho
  exact Option.some.inj (hq.symm.trans hq') ▸ hclosed

theorem timer_stopped (hd : d.Told) (ht : d.phase.isTold = true) : d.timer.stopped = true :=
  hd.obeyed (o := .stopTimer) ht (mem_orders.mpr (.inr (.inl rfl)))

end Told

/-! ## The effort that is left -/

def waiting (q? : Option (Queue Packet)) : Nat := q?.elim 0 Queue.size

def waitingAll (q? : Family → Option (Queue Packet)) : Nat := waiting (q? .v4) + waiting (q? .v6)

theorem waitingAll_update (q? : Family → Option (Queue Packet)) (family : Family)
    (x : Option (Queue Packet)) :
    waitingAll (Function.update q? family x) + waiting (q? family) = waitingAll q? + waiting x := by
  unfold waitingAll
  cases family <;> simp only [Function.update_self, Function.update_of_ne, ne_eq, reduceCtorEq,
    not_false_eq_true] <;>
    omega

theorem waitingAll_map {q? : Family → Option (Queue Packet)} {family : Family}
    {f : Queue Packet → Queue Packet} (hsize : ∀ q, q? family = some q → (f q).size = q.size) :
    waitingAll (Function.update q? family ((q? family).map f)) = waitingAll q? := by
  have hupdate := waitingAll_update q? family ((q? family).map f)
  have hone : waiting ((q? family).map f) = waiting (q? family) := by
    cases hq : q? family with
    | none => rfl
    | some q => exact hsize q hq
  omega

theorem waitingAll_take {q? : Family → Option (Queue Packet)} {family : Family} {q : Queue Packet}
    {p : Packet} (hq : q? family = some q) (hp : q.take.1 = some p) :
    waitingAll (Function.update q? family (some q.take.2)) + 1 = waitingAll q? := by
  have hupdate := waitingAll_update q? family (some q.take.2)
  have hlen := (Queue.take_perm hp).length_eq
  rw [List.length_cons] at hlen
  rw [hq] at hupdate
  simp only [waiting, Option.elim_some, Queue.size] at hupdate
  omega

theorem foldl_count (count : SessionManager → Nat) {services : List FamilyService}
    (hn : (services.map (·.family)).Nodup) (n : Nat) :
    services.foldl (fun n s => n + count s.manager) n =
      n + ((services.find? (·.family = .v4)).elim 0 fun s => count s.manager) +
        (services.find? (·.family = .v6)).elim 0 fun s => count s.manager := by
  induction services generalizing n with
  | nil => rfl
  | cons s rest ih =>
      obtain ⟨hnew, hrest⟩ := List.nodup_cons.mp hn
      have hnone : rest.find? (·.family = s.family) = none := by
        refine List.find?_eq_none.mpr fun other hother hsame => hnew ?_
        have hfamily : other.family = s.family := of_decide_eq_true hsame
        exact List.mem_map.mpr ⟨other, hother, hfamily⟩
      rw [List.foldl_cons, ih hrest]
      cases hs : s.family with
      | v4 =>
          rw [hs] at hnone
          simp [hs, hnone]
      | v6 =>
          rw [hs] at hnone
          simp [hs, hnone]
          omega

theorem total_eq (hd : d.Wired) (count : SessionManager → Nat) :
    d.total count = ((d.manager? .v4).elim 0 count) + (d.manager? .v6).elim 0 count := by
  have hcount := foldl_count count hd.families 0
  rw [Nat.zero_add] at hcount
  rw [total, hcount, manager?, manager?, service?, service?, Option.elim_map, Option.elim_map]
  rfl

def backlog (d : Daemon) : Nat :=
  2 * waitingAll d.inbound? + 2 * waitingAll d.outbound? + d.hands.length

theorem effort_eq (hd : d.Wired) :
    d.effort = d.backlog + (d.pool.outstanding + d.phase.effort d.tasks.length) := by
  have hin : d.total (·.inbound.size) = waitingAll d.inbound? := by
    rw [total_eq hd, waitingAll, waiting, waiting, inbound?, inbound?, Option.elim_map,
      Option.elim_map]
    rfl
  have hout : d.total (·.outbound.size) = waitingAll d.outbound? := by
    rw [total_eq hd, waitingAll, waiting, waiting, outbound?, outbound?, Option.elim_map,
      Option.elim_map]
    rfl
  rw [effort, hin, hout, backlog, Nat.add_assoc]

/-- Closed queues get no longer, and whoever takes a record or is done with one has lowered
the backlog. -/
theorem backlog_flow {es : List Ending} (hh : d.Held es)
    (hinClosed : ∀ family q, d.inbound? family = some q → q.closed = true)
    (houtClosed : ∀ family q, d.outbound? family = some q → q.closed = true) {n : Option Note}
    (hf : Flow d d' n) :
    d'.backlog < d.backlog ∨ d'.backlog = d.backlog ∧ d'.hands = d.hands := by
  have hdone : ∀ t p, d.hand? t = some p → d'.hands = d.hands.filter (·.1 ≠ t) →
      d'.hands.length + 1 = d.hands.length := by
    intro t p hp hhands
    rw [hhands, (hh.perm_letGo hp).1.length_eq]
    rfl
  unfold backlog
  cases hf with
  | still _ hn hin hout hhands =>
      rw [hin, hout, hhands]
      exact .inr ⟨rfl, rfl⟩
  | receives family p hin hout hhands =>
      rw [hin, hout, hhands,
        waitingAll_map fun q hq => by rw [Queue.push_of_closed (hinClosed family q hq)]]
      exact .inr ⟨rfl, rfl⟩
  -- A record counts twice while it waits and once while it is in someone's hands.
  | takesIn family number q p hq hp hfree hrunning hin hout hhands =>
      have hless := waitingAll_take hq hp
      rw [hin, hout, hhands, List.length_append, List.length_singleton]
      omega
  | takesOut family id q p hq hp hfree hrunning hin hout hhands =>
      have hless := waitingAll_take hq hp
      rw [hin, hout, hhands, List.length_append, List.length_singleton]
      omega
  | dispatches family number p panic q replies hp hin hq hout hhands =>
      have hless := hdone _ p hp hhands
      have hout' : waitingAll d'.outbound? = waitingAll d.outbound? := by
        have hsize : ∀ q, d.outbound? family = some q →
            (replies.foldl (fun q p => (q.push p).2) q).size = q.size := by
          intro q' hq'
          rw [Queue.foldl_push, if_pos (houtClosed family q' hq')]
        have hmap := waitingAll_map hsize
        rw [hq] at hmap
        rw [hout]
        exact hmap
      rw [hin, hout']
      omega
  | sends family id p _ hn hp hin hout hhands =>
      have hless := hdone _ p hp hhands
      rw [hin, hout]
      omega
  | closesIn family hin hout hhands =>
      rw [hin, hout, hhands, waitingAll_map (f := Queue.close) fun _ _ => rfl]
      exact .inr ⟨rfl, rfl⟩
  | closesOut family hin hout hhands =>
      rw [hin, hout, hhands, waitingAll_map (f := Queue.close) fun _ _ => rfl]
      exact .inr ⟨rfl, rfl⟩

/-- Whatever comes to the pool or moves the shutdown on has lowered what is left for them. -/
theorem labor_course {es : List Ending} (hs : d.Staffed crew es) (ht : d.phase.isTold = true)
    (hstopped : d.timer.stopped = true) {a : Act} {e : Option Ending} (hc : Course d d' a e) :
    d'.pool.outstanding + d'.phase.effort d.tasks.length <
        d.pool.outstanding + d.phase.effort d.tasks.length ∨
      d'.pool.outstanding + d'.phase.effort d.tasks.length =
          d.pool.outstanding + d.phase.effort d.tasks.length ∧
        d'.expiries = d.expiries ∧ d'.phase = d.phase ∧ e = none := by
  have hout := hs.pool.sound.length_live
  have hended : ∀ {q : Pool (Except Failure Unit)} {job outcome}, q.Healthy crew →
      d.pool.Ended q job outcome →
      q.outstanding + 1 = d.pool.outstanding := by
    intro q job outcome hhealthy hended
    have hlen := hended.live.length_eq
    rw [hout, List.length_cons, hhealthy.sound.length_live] at hlen
    exact hlen.symm
  cases hc with
  | goesOn hpool hexpiries hphase hreleased =>
      rw [hpool, hphase]
      exact .inr ⟨rfl, hexpiries, rfl, rfl⟩
  | tells left hpool hexpiries hbefore hafter hreleased =>
      rcases hbefore with hphase | ⟨o, hphase⟩
      all_goals
        rw [hphase] at ht
        cases ht
  | ends t outcome hrunning hpool hexpiries hphase hreleased =>
      obtain ⟨job, -, hhealthy, hend⟩ := hs.toManned.finishes hrunning outcome
      have hless := hended hhealthy hend
      rw [hpool, hphase]
      omega
  | passes hrunning hopen heq =>
      rw [hstopped] at hopen
      cases hopen
  | expires job hbusy hjob hpool hexpiries hphase hreleased =>
      obtain ⟨hhealthy, hend⟩ := hs.toManned.completes (hs.toManned.isBusyWith_iff.mp hbusy)
        (List.mem_append_right _ hjob) (.ok (.ok ()))
      have hless := hended hhealthy hend
      rw [hpool, hphase]
      omega
  | joins joined failed t job ending hphase htask hending heq =>
      obtain ⟨slots, hslots, -, -⟩ := Pool.take_eq_setSlot d.pool job
      have hlt := (List.getElem?_eq_some_iff.mp htask).choose
      rw [heq, hphase, hslots]
      simp only [Phase.effort]
      omega
  | closes joined failed hact hphase hall heq =>
      have hopen : d.pool.stopping = false := by
        rw [hs.stopping, hphase]
        rfl
      obtain ⟨-, hhealthy, hlive, -, -, -, -⟩ := hs.pool.shutdown hopen
      have hsame : (d.closePool joined failed).pool.outstanding = d.pool.outstanding := by
        have hlen := hlive.length_eq
        rw [hhealthy.sound.length_live, hout] at hlen
        exact hlen
      rw [heq, hsame, hphase, hall]
      simp only [closePool, Phase.effort]
      omega
  | concludes joined failed threads hact hphase hgone heq =>
      rw [heq, hphase]
      simp only [conclude, modifyManagers, Phase.effort]
      omega

/-- An act that gets nothing done. -/
structure Idle (d d' : Daemon) (e : Option Ending) : Prop where
  hands : d'.hands = d.hands
  expiries : d'.expiries = d.expiries
  phase : d'.phase = d.phase
  ending : e = none

/-- Once every loop was told to end, an act lowers the effort that is left, or gets nothing done. -/
theorem effort_act (hd : d.Accounted crew ns) (ht : d.phase.isTold = true) {a : Act}
    (ha : d.act h a = some d') :
    d'.effort < d.effort ∨ d'.effort = d.effort ∧ Idle d d' ((d.note? a).bind Note.ending?) := by
  have hbacklog := backlog_flow hd.held (fun _ _ => hd.told.inbound_closed ht)
      (fun _ _ => hd.told.outbound_closed ht)
    (act_flow ha)
  have hlabor := labor_course hd.staffed ht (hd.told.timer_stopped ht) (act_course ha)
  rw [effort_eq hd.wired, effort_eq (hd.wired.act ha), (act_frame ha).1]
  rcases hbacklog with hless | ⟨hsame, hhands⟩
  · rcases hlabor with hless' | ⟨hsame', -⟩ <;> omega
  · rcases hlabor with hless' | ⟨hsame', hexpiries, hphase, hending⟩
    · omega
    · exact .inr ⟨by omega, hhands, hexpiries, hphase, hending⟩

/-! ## What is due -/

section Due

variable {t : Task} {a : Act}

theorem exists_of_firstTask? {act? : Task → Option Act} (hf : d.firstTask? act? = some a) :
    ∃ t, d.isRunning t = true ∧ act? t = some a := by
  obtain ⟨t, -, ht⟩ := List.exists_of_findSome?_eq_some hf
  split_ifs at ht with hrunning
  exact ⟨t, hrunning, ht⟩

theorem none_of_firstTask? {act? : Task → Option Act} (hf : d.firstTask? act? = none)
    (hmem : t ∈ d.tasks.map (·.1)) (hrunning : d.isRunning t = true) : act? t = none := by
  have hnone := List.findSome?_eq_none_iff.mp hf t hmem
  rwa [if_pos hrunning] at hnone

theorem taken?_eq_none {queue? : Option (Queue Packet)} {handle : Packet → Act}
    (hn : d.taken? t queue? handle = none) : d.hand? t = none ∧ ∀ q ∈ queue?, q.isEmpty = true := by
  unfold taken? at hn
  cases hp : d.hand? t with
  | some p => simp [hp] at hn
  | none =>
      refine ⟨rfl, fun q hq => ?_⟩
      cases hempty : q.isEmpty with
      | true => rfl
      | false => simp [hp, Option.mem_def.mp hq, hempty] at hn

theorem taken?_eq_some {queue? : Option (Queue Packet)} {handle : Packet → Act}
    (hs : d.taken? t queue? handle = some a) :
    (∃ p, d.hand? t = some p ∧ a = handle p) ∨
      d.hand? t = none ∧ a = .take t ∧ ∃ q p, queue? = some q ∧ q.take.1 = some p := by
  unfold taken? at hs
  cases hp : d.hand? t with
  | some p =>
      simp only [hp, Option.some.injEq] at hs
      exact .inl ⟨p, rfl, hs.symm⟩
  | none =>
      simp only [hp] at hs
      split_ifs at hs with hany
      obtain ⟨q, hq, hempty⟩ := (Option.any_eq_true _ _).mp hany
      have htake : q.take.1 ≠ none := by
        rw [ne_eq, Queue.take_eq_none_iff]
        simpa [Queue.isEmpty] using hempty
      obtain ⟨p, htake⟩ := Option.ne_none_iff_exists'.mp htake
      exact .inr ⟨rfl, (Option.some.inj hs).symm, q, p, hq, htake⟩

theorem mem_tasks_of_isRunning (hrunning : d.isRunning t = true) : t ∈ d.tasks.map (·.1) := by
  obtain ⟨job, hjob, -⟩ := (Option.any_eq_true _ _).mp hrunning
  obtain ⟨l, r, hlr, -⟩ := List.lookup_eq_some_iff.mp hjob
  rw [hlr]
  simp

/-- When nothing is due for a loop or an expiry, none is left. -/
theorem live_eq_nil (hd : d.Accounted crew ns) (ht : d.phase.isTold = true)
    (hexpire : d.nextExpire? = none) (hdispatch : d.nextDispatch? = none)
    (htransmit : d.nextTransmit? network = none) (hfinish : d.nextFinish? = none) :
    d.pool.live = [] := by
  have hmanned := hd.staffed.toManned
  by_contra hlive
  obtain ⟨job, hheld, hjob⟩ := hmanned.pool.exists_running hlive
  rcases (hmanned.live job).mp hjob with ⟨t, htask, -⟩ | hexpiry
  · have hrunning := hmanned.isRunning_iff.mpr ⟨job, htask, hheld⟩
    have hmem : t ∈ d.tasks.map (·.1) := List.mem_map_of_mem htask
    have hundone : ¬ d.isDone t = true := by
      intro hdone
      have hnone := none_of_firstTask? hfinish hmem hrunning
      rw [if_pos hdone] at hnone
      cases hnone
    have hobeyed := hd.told.obeyed ht (hd.wired.ordered t hmem)
    cases t with
    | timer => exact hundone hobeyed
    | receiver family id => exact hundone (decide_eq_true hobeyed)
    | reloadWatcher => exact hundone (decide_eq_true hobeyed)
    | dispatcher family n =>
        obtain ⟨q, hq, hclosed⟩ := hobeyed
        obtain ⟨hfree, hempty⟩ := taken?_eq_none (none_of_firstTask? hdispatch hmem hrunning)
        refine hundone ?_
        simp [isDone, hq, hclosed, hempty q hq, hfree]
    | sender family id =>
        obtain ⟨q, hq, hclosed⟩ := hobeyed
        obtain ⟨hfree, hempty⟩ := taken?_eq_none (none_of_firstTask? htransmit hmem hrunning)
        refine hundone ?_
        simp [isDone, hq, hclosed, hempty q hq, hfree]
  · obtain ⟨e, he, rfl⟩ := List.mem_map.mp hexpiry
    have hnone := List.find?_eq_none.mp (Option.map_eq_none_iff.mp hexpire) e he
    exact hnone (hmanned.isBusyWith_iff.mpr hheld)

/-- A loop that is done with what it holds has got something done. -/
theorem effort_lt_of_letGo (hd : d.Accounted crew ns) (ht : d.phase.isTold = true)
    (ha : d.act h a = some d') {p : Packet} (hp : d.hand? t = some p)
    (hhands : d'.hands = d.hands.filter (·.1 ≠ t)) : d'.effort < d.effort := by
  refine (effort_act hd ht ha).resolve_right fun hidle => ?_
  have hlen := (hd.held.perm_letGo hp).1.length_eq
  rw [← hhands, hidle.2.hands] at hlen
  exact Nat.succ_ne_self _ hlen.symm

/-- So has a loop that takes something. -/
theorem effort_lt_of_take (hd : d.Accounted crew ns) (ht : d.phase.isTold = true)
    (ha : d.act h a = some d') {p : Packet} (hhands : d'.hands = d.hands ++ [(t, p)]) :
    d'.effort < d.effort := by
  refine (effort_act hd ht ha).resolve_right fun hidle => ?_
  have hsame := hidle.2.hands
  rw [hhands] at hsame
  simp at hsame

theorem effort_lt_of_ending (hd : d.Accounted crew ns) (ht : d.phase.isTold = true)
    (ha : d.act h a = some d') {e : Ending} (he : (d.note? a).bind Note.ending? = some e) :
    d'.effort < d.effort := by
  refine (effort_act hd ht ha).resolve_right fun hidle => ?_
  have hnone := hidle.2.ending
  rw [he] at hnone
  cases hnone

theorem nextExpire?_act (h : Handler) (hd : d.Accounted crew ns) (ht : d.phase.isTold = true)
    (hn : d.nextExpire? = some a) : ∃ d', d.act h a = some d' ∧ d'.effort < d.effort := by
  obtain ⟨e, he, rfl⟩ := Option.map_eq_some_iff.mp hn
  have hbusy := List.find?_some he
  have hmem := List.mem_of_find?_eq_some he
  have hlookup : d.expiries.lookup e.1 = some e.2 :=
    (lookup_eq_some_iff_mem (List.nodup_append.mp hd.staffed.jobs).2.1).mpr hmem
  have ha : d.act h (.expire e.1) = some (d.expire e.1 e.2) := by simp [Daemon.act, hbusy, hlookup]
  refine ⟨_, ha, (effort_act hd ht ha).resolve_right fun hidle => ?_⟩
  have hexpiries : (d.expire e.1 e.2).expiries = d.expiries.filter (·.1 ≠ e.1) := by
    rw [expire, complete_eq]
    rfl
  have hsame := hidle.2.expiries
  rw [hexpiries] at hsame
  have hne := List.filter_eq_self.mp hsame e hmem
  simp at hne

theorem nextDispatch?_act (h : Handler) (hd : d.Accounted crew ns) (ht : d.phase.isTold = true)
    (hn : d.nextDispatch? = some a) : ∃ d', d.act h a = some d' ∧ d'.effort < d.effort := by
  obtain ⟨t, hrunning, hact⟩ := exists_of_firstTask? hn
  cases t with
  | dispatcher family n =>
      obtain ⟨m, hm⟩ := hd.wired.dispatcher (mem_tasks_of_isRunning hrunning)
      rcases taken?_eq_some hact with ⟨p, hp, rfl⟩ | ⟨hfree, rfl, q, p, hq, hp⟩
      · obtain ⟨d', ha⟩ : ∃ d', d.act h (.dispatch family n none) = some d' := by
          simp [Daemon.act, hrunning, dispatch, hm, hp]
        obtain ⟨-, _, _, _, _, _, -, -, -, -, hdone, heq⟩ := act_dispatch ha
        refine ⟨d', ha, effort_lt_of_letGo hd ht ha hp ?_⟩
        rw [heq, Option.elim_none, hdone]
        rfl
      · have ha : d.act h (.take (.dispatcher family n)) = some ((d.modifyManager family fun m =>
            { m with inbound := q.take.2 }).hold (.dispatcher family n) p) := by
          simp [Daemon.act, hrunning, hfree, take, hq, hp]
        exact ⟨_, ha, effort_lt_of_take hd ht ha rfl⟩
  | _ => cases hact

theorem nextTransmit?_act (h : Handler) (hd : d.Accounted crew ns) (ht : d.phase.isTold = true)
    (hn : d.nextTransmit? network = some a) : ∃ d', d.act h a = some d' ∧ d'.effort < d.effort := by
  obtain ⟨t, hrunning, hact⟩ := exists_of_firstTask? hn
  cases t with
  | sender family id =>
      obtain ⟨e, he⟩ := hd.wired.senders family id (mem_tasks_of_isRunning hrunning)
      rcases taken?_eq_some hact with ⟨p, hp, rfl⟩ | ⟨hfree, rfl, q, p, hq, hp⟩
      · have hdelivery : network.deliver p ≠ .interrupted := by
          unfold Network.deliver
          split <;> exact nofun
        obtain ⟨d', ha⟩ : ∃ d', d.act h (.transmit family id (network.deliver p)) = some d' := by
          simp only [Daemon.act, hrunning, transmit, he, hp, if_true, Option.bind_eq_bind,
            Option.bind_some]
          split_ifs <;> cases network.deliver p <;> exact ⟨_, rfl⟩
        refine ⟨d', ha, effort_lt_of_letGo hd ht ha hp ?_⟩
        obtain ⟨-, _, _, -, -, ⟨reason, -, -, rfl⟩ | ⟨-, hinterrupted, -⟩ | ⟨-, events, rfl⟩⟩ :=
          act_transmit ha
        · rw [finish_eq]
          rfl
        · exact absurd hinterrupted hdelivery
        · rfl
      · have ha : d.act h (.take (.sender family id)) = some ((d.modifyManager family fun m =>
            { m with outbound := q.take.2 }).hold (.sender family id) p) := by
          simp [Daemon.act, hrunning, hfree, take, hq, hp]
        exact ⟨_, ha, effort_lt_of_take hd ht ha rfl⟩
  | _ => cases hact

theorem nextFinish?_act (h : Handler) (hd : d.Accounted crew ns) (ht : d.phase.isTold = true)
    (hn : d.nextFinish? = some a) : ∃ d', d.act h a = some d' ∧ d'.effort < d.effort := by
  obtain ⟨t, hrunning, hact⟩ := exists_of_firstTask? hn
  split_ifs at hact with hdone
  obtain rfl := Option.some.inj hact
  have ha : d.act h (.finish t) = some ((d.report (farewell t)).finish t (.ok (.ok ()))) := by
    simp [Daemon.act, hrunning, hdone]
  exact ⟨_, ha, effort_lt_of_ending hd ht ha rfl⟩

/-- When no loop is left, the outcome of the next one to be waited for is there. -/
theorem exists_outcome (hd : d.Accounted crew ns) (hlive : d.pool.live = []) {joined : Nat}
    {failed : List (Task × Failure)} (hphase : d.phase = .joining joined failed)
    (hlt : joined < d.tasks.length) :
    ∃ t job outcome, d.tasks[joined]? = some (t, job) ∧ (d.pool.take job).1 = some outcome := by
  obtain ⟨⟨t, job⟩, htask⟩ : ∃ e, d.tasks[joined]? = some e := ⟨_, List.getElem?_eq_getElem hlt⟩
  have hmem : (t, job) ∈ d.tasks := List.mem_of_getElem? htask
  obtain ⟨outcome, houtcome⟩ : ∃ outcome, (endings ns).lookup t = some outcome := by
    by_contra hnone
    have hopen : t ∉ (endings ns).map (·.1) := by
      intro hended
      obtain ⟨e, he, rfl⟩ := List.mem_map.mp hended
      exact hnone ⟨e.2, (lookup_eq_some_iff_mem hd.staffed.once).mpr he⟩
    have hlives := (hd.staffed.live job).mpr (.inl ⟨t, hmem, hopen⟩)
    rw [hlive] at hlives
    cases hlives
  have hdrop : (t, job) ∈ d.tasks.drop d.phase.standing.joined := by
    rw [hphase]
    change (t, job) ∈ d.tasks.drop joined
    rw [List.drop_eq_getElem_cons hlt,
      Option.some.inj ((List.getElem?_eq_getElem hlt).symm.trans htask)]
    exact List.mem_cons_self
  have hslot := hd.staffed.slots _ hdrop
  rw [houtcome] at hslot
  refine ⟨t, job, outcome.deliver, htask, ?_⟩
  unfold Pool.take
  simp [show d.pool.slot job = ⟨some outcome, true⟩ from hslot]

/-- When no loop is left, the shutdown itself can go on. -/
theorem nextStep?_act (h : Handler) (hd : d.Accounted crew ns) (ht : d.phase.isTold = true)
    (hup : ∀ r, d.phase ≠ .down r) (hlive : d.pool.live = []) :
    ∃ a d', d.nextStep? = some a ∧ d.act h a = some d' ∧ d'.effort < d.effort := by
  have hmoves : ∀ {a d'}, d.act h a = some d' → d'.phase ≠ d.phase → d'.effort < d.effort := by
    intro a d' ha hphase
    exact (effort_act hd ht ha).resolve_right fun hidle => hphase hidle.2.phase
  cases hphase : d.phase with
  | running =>
      rw [hphase] at ht
      cases ht
  | stopping left =>
      rw [hphase] at ht
      cases ht
  | down r => exact absurd hphase (hup r)
  | joining joined failed =>
      by_cases hlt : joined < d.tasks.length
      · obtain ⟨t, job, outcome, htask, htake⟩ := exists_outcome hd hlive hphase hlt
        have ha : d.act h .join = some { d with
            pool := (d.pool.take job).2
            phase :=
              .joining (joined + 1) (failed ++ ((failureOf outcome).map (t, ·)).toList) } := by
          simp [Daemon.act, hphase, htask, htake]
        refine ⟨.join, _, by simp [nextStep?, hphase, hlt], ha, hmoves ha ?_⟩
        rw [hphase]
        simp
      · have hall : joined = d.tasks.length := by
          have hle := hd.staffed.le
          rw [hphase] at hle
          exact Nat.le_antisymm hle (Nat.le_of_not_lt hlt)
        have ha : d.act h .closePool = some (d.closePool joined failed) := by
          simp [Daemon.act, hphase, hall]
        refine ⟨.closePool, _, by simp [nextStep?, hphase, hlt], ha, hmoves ha ?_⟩
        rw [hphase]
        exact nofun
  | draining joined failed threads =>
      have hstopping : d.pool.stopping = true := by
        rw [hd.staffed.stopping, hphase]
        rfl
      have hgone := hd.staffed.pool.workers_eq_nil hstopping hlive
      have ha : d.act h .conclude = some (d.conclude joined failed threads) := by
        simp [Daemon.act, hphase, hgone]
      refine ⟨.conclude, _, by simp [nextStep?, hphase], ha, hmoves ha ?_⟩
      rw [hphase]
      exact nofun

/-- Until a daemon is down something is due that gets it on. -/
theorem exists_due (h : Handler) (network : Network) (hd : d.Accounted crew ns)
    (ht : d.phase.isTold = true) (hup : ∀ r, d.phase ≠ .down r) :
    ∃ a d', d.due? network = some a ∧ d.act h a = some d' ∧ d'.effort < d.effort := by
  unfold due?
  cases hexpire : d.nextExpire? with
  | some a => exact ⟨a, (nextExpire?_act h hd ht hexpire).imp fun _ hact => ⟨rfl, hact⟩⟩
  | none =>
  cases hdispatch : d.nextDispatch? with
  | some a => exact ⟨a, (nextDispatch?_act h hd ht hdispatch).imp fun _ hact => ⟨rfl, hact⟩⟩
  | none =>
  cases htransmit : d.nextTransmit? network with
  | some a => exact ⟨a, (nextTransmit?_act h hd ht htransmit).imp fun _ hact => ⟨rfl, hact⟩⟩
  | none =>
  cases hfinish : d.nextFinish? with
  | some a => exact ⟨a, (nextFinish?_act h hd ht hfinish).imp fun _ hact => ⟨rfl, hact⟩⟩
  | none =>
  have hlive := live_eq_nil hd ht hexpire hdispatch htransmit hfinish
  obtain ⟨a, d', hstep, hact⟩ := nextStep?_act h hd ht hup hlive
  exact ⟨a, d', by simp [hstep], hact⟩

end Due

/-! ## The end of a shutdown -/

theorem exists_run_repeatedly (h : Handler) (pick? : Daemon → Option Act) (limit : Nat)
    (d : Daemon) :
    ∃ acts, d.run h acts = some (repeatedly h pick? limit d) := by
  induction limit generalizing d with
  | zero => exact ⟨[], rfl⟩
  | succ limit ih =>
      unfold repeatedly
      split
      · rename_i d' hpick
        obtain ⟨a, -, ha⟩ := Option.bind_eq_some_iff.mp hpick
        obtain ⟨acts, hacts⟩ := ih d'
        refine ⟨a :: acts, ?_⟩
        rw [run, List.foldlM_cons, ha]
        exact hacts
      · exact ⟨[], rfl⟩

/-- A daemon that is down stays down, with the report that it gave. -/
theorem Phase.Turn.down {phase phase' : Phase} {r : ShutdownReport} (ht : Phase.Turn phase phase')
    (hdown : phase = .down r) : phase' = .down r := by
  cases ht with
  | stays phase => exact hdown
  | tells left hbefore => rcases hbefore with rfl | ⟨o, rfl⟩ <;> cases hdown
  | joins joined failed failed' => cases hdown
  | closes joined failed threads => cases hdown
  | concludes joined failed threads dropped => cases hdown

theorem down_run {r : ShutdownReport} (hdown : d.phase = .down r) {acts : List Act}
    (hrun : d.run h acts = some d') :
    d'.phase = .down r :=
  Run.invariant (fun d => d.phase = .down r)
    (fun _ _ _ hd ha => (act_course ha).turn.down hd) hdown hrun

/-- What is due brings a daemon down that was told to end. -/
theorem repeatedly_due_down (h : Handler) (network : Network) (hd : d.Accounted crew ns)
    (ht : d.phase.isTold = true) {limit : Nat} (hle : d.effort ≤ limit) :
    ∃ r, (repeatedly h (due? network) limit d).phase = .down r := by
  induction limit generalizing d ns with
  | zero =>
      by_contra hup
      obtain ⟨a, d', -, -, hlt⟩ := exists_due h network hd ht fun r hr => hup ⟨r, hr⟩
      omega
  | succ limit ih =>
      by_cases hdown : ∃ r, d.phase = .down r
      · obtain ⟨r, hr⟩ := hdown
        obtain ⟨acts, hacts⟩ := exists_run_repeatedly h (due? network) (limit + 1) d
        exact ⟨r, down_run hr hacts⟩
      · obtain ⟨a, d', hdue, ha, hlt⟩ := exists_due h network hd ht fun r hr => hdown ⟨r, hr⟩
        have hnext :
            repeatedly h (due? network) (limit + 1) d = repeatedly h (due? network) limit d' := by
          rw [repeatedly, hdue, Option.bind_some, ha]
        rw [hnext]
        exact ih (hd.act ha) ((act_course ha).turn.isTold ht) (by omega)

/-- The orders are given one after the other. -/
theorem repeatedly_nextStep_told (h : Handler) {left : List Order}
    (hphase : d.phase = .ofOrders left) :
    (repeatedly h nextStep? left.length d).phase.isTold = true := by
  induction left generalizing d with
  | nil =>
      change d.phase.isTold = true
      rw [hphase]
      rfl
  | cons o left ih =>
      have hstep : repeatedly h nextStep? (left.length + 1) d =
          repeatedly h nextStep? left.length { d.give o with phase := .ofOrders left } := by
        have hphase : d.phase = .stopping (o :: left) := hphase
        simp [repeatedly, nextStep?, hphase, act]
      rw [List.length_cons, hstep]
      exact ih rfl

/-- With all orders given, what is due brings the daemon down. -/
theorem ordered_down (h : Handler) (network : Network) (hd : d.Accounted crew ns)
    {left : List Order} (hphase : d.phase = .ofOrders left) :
    let told := repeatedly h nextStep? left.length d
    ∃ acts r, d.run h acts = some (repeatedly h (due? network) told.effort told) ∧
      (repeatedly h (due? network) told.effort told).phase = .down r := by
  intro told
  have htold : told.phase.isTold = true := repeatedly_nextStep_told h hphase
  obtain ⟨orders, horders⟩ : ∃ acts, d.run h acts = some told :=
    exists_run_repeatedly h nextStep? left.length d
  obtain ⟨r, hdown⟩ := repeatedly_due_down h network (hd.run horders) htold (Nat.le_refl _)
  obtain ⟨rest, hrest⟩ := exists_run_repeatedly h (due? network) told.effort told
  refine ⟨orders ++ rest, r, ?_, hdown⟩
  rw [run, List.foldlM_append]
  rw [run] at horders
  rw [horders]
  exact hrest

/-- A shutdown is a run that brings the daemon down. -/
theorem shutdown_down (h : Handler) (network : Network) (hd : d.Accounted crew ns)
    (hphase : d.phase = .running) :
    ∃ acts r, d.run h acts = some (d.shutdown h network) ∧
      (d.shutdown h network).phase = .down r := by
  have hstop : d.act h .stop = some { d with phase := .ofOrders d.orders } := by simp [act, hphase]
  have hfirst :
      repeatedly h (fun _ => some .stop) 1 d = { d with phase := .ofOrders d.orders } := by
    simp [repeatedly, hstop]
  obtain ⟨acts, r, hacts, hdown⟩ :=
    ordered_down h network (hd.act hstop) (rfl : _ = Phase.ofOrders d.orders)
  refine ⟨.stop :: acts, r, ?_, ?_⟩
  · rw [shutdown, hfirst, run, List.foldlM_cons, hstop]
    exact hacts
  · rw [shutdown, hfirst]
    exact hdown

/-- From wherever a daemon has got to it can be brought down. -/
theorem exists_run_down (h : Handler) (network : Network) (hd : d.Accounted crew ns) :
    ∃ acts d' r, d.run h acts = some d' ∧ d'.phase = .down r := by
  have htold : d.phase.isTold = true → ∃ acts d' r, d.run h acts = some d' ∧
      d'.phase = .down r := by
    intro ht
    obtain ⟨r, hdown⟩ := repeatedly_due_down h network hd ht (Nat.le_refl _)
    obtain ⟨acts, hacts⟩ := exists_run_repeatedly h (due? network) d.effort d
    exact ⟨acts, _, r, hacts, hdown⟩
  cases hphase : d.phase with
  | running =>
      obtain ⟨acts, r, hacts, hdown⟩ := shutdown_down h network hd hphase
      exact ⟨acts, _, r, hacts, hdown⟩
  | stopping left =>
      have hleft : d.phase = .ofOrders left := by
        cases left with
        | nil => exact absurd hphase hd.told.begun
        | cons o left => exact hphase
      obtain ⟨acts, r, hacts, hdown⟩ := ordered_down h network hd hleft
      exact ⟨acts, _, r, hacts, hdown⟩
  | joining joined failed => exact htold (hphase ▸ rfl)
  | draining joined failed threads => exact htold (hphase ▸ rfl)
  | down r => exact ⟨[], d, r, rfl, hphase⟩

end SessionDispatch.Daemon
