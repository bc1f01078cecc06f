import SessionDispatch.Proofs.Daemon.Staff
import SessionDispatch.Proofs.Queue.Taking

/-!
# The way of the records

A record that was accepted waits in the inbound queue of its family until a dispatcher takes it, and
is in the hands of this dispatcher until the handler has it. Nothing else takes records away, and a
dispatcher ends in its own time only when the queue is closed and empty.
-/

namespace SessionDispatch.Daemon

variable {h : Handler} {d d' : Daemon}

open Function (update)

/-! ## What an act is to the records -/

/-- What an act does to the queues and to what loops have taken, with what is noted of it. -/
inductive Flow (d d' : Daemon) : Option Note → Prop
  | still (n : Option Note) (hn : ∀ x ∈ n, ∃ e, x = .ended e) (hin : d'.inbound? = d.inbound?)
      (hout : d'.outbound? = d.outbound?) (hhands : d'.hands = d.hands) : Flow d d' n
  | receives (family : Family) (p : Packet)
      (hin : d'.inbound? = update d.inbound? family ((d.inbound? family).map fun q => (q.push p).2))
      (hout : d'.outbound? = d.outbound?) (hhands : d'.hands = d.hands) :
      Flow d d' (if (d.inbound? family).any (!·.closed) then some (.accepted family p) else none)
  | takesIn (family : Family) (n : Nat) (q : Queue Packet) (p : Packet)
      (hq : d.inbound? family = some q)
      (hp : q.take.1 = some p) (hfree : d.hand? (.dispatcher family n) = none)
      (hrunning : d.isRunning (.dispatcher family n) = true)
      (hin : d'.inbound? = update d.inbound? family (some q.take.2))
        (hout : d'.outbound? = d.outbound?)
      (hhands : d'.hands = d.hands ++ [(.dispatcher family n, p)]) : Flow d d' none
  | takesOut (family : Family) (id : Nat) (q : Queue Packet) (p : Packet)
      (hq : d.outbound? family = some q)
      (hp : q.take.1 = some p) (hfree : d.hand? (.sender family id) = none)
      (hrunning : d.isRunning (.sender family id) = true)
      (hin : d'.inbound? = d.inbound?)
        (hout : d'.outbound? = update d.outbound? family (some q.take.2))
      (hhands : d'.hands = d.hands ++ [(.sender family id, p)]) : Flow d d' none
  | dispatches (family : Family) (n : Nat) (p : Packet) (panic : Option String) (q : Queue Packet)
      (replies : List Packet) (hp : d.hand? (.dispatcher family n) = some p)
        (hin : d'.inbound? = d.inbound?)
      (hq : d.outbound? family = some q)
      (hout : d'.outbound? =
        update d.outbound? family (some (replies.foldl (fun q p => (q.push p).2) q)))
      (hhands : d'.hands = d.hands.filter (·.1 ≠ .dispatcher family n)) :
      Flow d d' (some (.dispatched family n p panic))
  | sends (family : Family) (id : Nat) (p : Packet) (n : Option Note)
      (hn : ∀ x ∈ n, ∃ e, x = .ended e)
      (hp : d.hand? (.sender family id) = some p) (hin : d'.inbound? = d.inbound?)
      (hout : d'.outbound? = d.outbound?)
        (hhands : d'.hands = d.hands.filter (·.1 ≠ .sender family id)) : Flow d d' n
  | closesIn (family : Family)
      (hin : d'.inbound? = update d.inbound? family ((d.inbound? family).map Queue.close))
      (hout : d'.outbound? = d.outbound?) (hhands : d'.hands = d.hands) : Flow d d' none
  | closesOut (family : Family) (hin : d'.inbound? = d.inbound?)
      (hout : d'.outbound? = update d.outbound? family ((d.outbound? family).map Queue.close))
      (hhands : d'.hands = d.hands) : Flow d d' none

section Queues

variable {f : SessionManager → SessionManager}

theorem queues_modifyManager (d : Daemon) (family : Family)
    (hf : ∀ m, m.family = family → (f m).family = family) :
    (d.modifyManager family f).inbound? =
      update d.inbound? family ((d.manager? family).map fun m => (f m).inbound) ∧
      (d.modifyManager family f).outbound? =
        update d.outbound? family ((d.manager? family).map fun m => (f m).outbound) := by
  constructor
  all_goals
    funext other
    simp only [inbound?, outbound?, manager?_modifyManager hf]
    by_cases hother : other = family
    · subst hother
      simp [Option.map_map, Function.comp_def]
    · simp [hother, Function.update_of_ne, inbound?, outbound?]

theorem queues_of_services {e : Daemon} (hs : e.services = d.services) :
    e.inbound? = d.inbound? ∧ e.outbound? = d.outbound? := by
  have hm : e.manager? = d.manager? := by
    funext family
    unfold manager? service?
    rw [hs]
  constructor
  · funext family
    rw [inbound?, inbound?, hm]
  · funext family
    rw [outbound?, outbound?, hm]

theorem queues_modifyInbound (d : Daemon) (family : Family) (g : Queue Packet → Queue Packet) :
    (d.modifyManager family fun m => { m with inbound := g m.inbound }).inbound? =
        update d.inbound? family ((d.inbound? family).map g) ∧
      (d.modifyManager family fun m => { m with inbound := g m.inbound }).outbound? =
        d.outbound? := by
  obtain ⟨hin, hout⟩ :=
    queues_modifyManager (f := fun m => { m with inbound := g m.inbound }) d family fun _ hm => hm
  constructor
  · rw [inbound?, Option.map_map]
    exact hin
  · exact hout.trans (Function.update_eq_self family d.outbound?)

theorem queues_modifyOutbound (d : Daemon) (family : Family) (g : Queue Packet → Queue Packet) :
    (d.modifyManager family fun m => { m with outbound := g m.outbound }).inbound? = d.inbound? ∧
      (d.modifyManager family fun m => { m with outbound := g m.outbound }).outbound? =
        update d.outbound? family ((d.outbound? family).map g) := by
  obtain ⟨hin, hout⟩ :=
    queues_modifyManager (f := fun m => { m with outbound := g m.outbound }) d family fun _ hm => hm
  constructor
  · exact hin.trans (Function.update_eq_self family d.inbound?)
  · rw [outbound?, Option.map_map]
    exact hout

theorem queues_modifyManager_same (d : Daemon) (family : Family)
    (hf : ∀ m, m.family = family → (f m).family = family)
    (hq : ∀ m, (f m).inbound = m.inbound ∧ (f m).outbound = m.outbound) :
    (d.modifyManager family f).inbound? = d.inbound? ∧
    (d.modifyManager family f).outbound? = d.outbound? := by
  obtain ⟨hin, hout⟩ := queues_modifyManager d family hf
  have hin' : (fun m => (f m).inbound) = SessionManager.inbound := funext fun m => (hq m).1
  have hout' : (fun m => (f m).outbound) = SessionManager.outbound := funext fun m => (hq m).2
  rw [hin'] at hin
  rw [hout'] at hout
  exact ⟨hin.trans (Function.update_eq_self family d.inbound?),
    hout.trans (Function.update_eq_self family d.outbound?)⟩

theorem queues_modifyManagers (d : Daemon) (hf : ∀ m, (f m).family = m.family)
    (hq : ∀ m, (f m).inbound = m.inbound ∧ (f m).outbound = m.outbound) :
    (d.modifyManagers f).inbound? = d.inbound? ∧ (d.modifyManagers f).outbound? = d.outbound? := by
  constructor
  all_goals
    funext family
    simp only [inbound?, outbound?, manager?_modifyManagers hf, Option.map_map]
    congr 1
    funext m
    simp [hq m]

end Queues

section Flow

variable {family : Family} {n : Nat} {panic : Option String} {t : Task}

/-- Where neither the services nor what was taken change, nothing flows. -/
theorem Flow.of_same {n : Option Note} (hn : ∀ x ∈ n, ∃ e, x = .ended e)
    (hs : d'.services = d.services) (hh : d'.hands = d.hands) : Flow d d' n := by
  obtain ⟨hin, hout⟩ := queues_of_services hs
  exact .still n hn hin hout hh

theorem take_flow (ha : d.act h (.take t) = some d') : Flow d d' none := by
  obtain ⟨hrunning, hfree, family, m, p, hm, ⟨⟨n, rfl⟩, hp, rfl⟩ | ⟨⟨id, rfl⟩, hp, rfl⟩⟩ :=
    act_take ha
  · have hq : d.inbound? family = some m.inbound := by rw [inbound?, hm]; rfl
    obtain ⟨hin, hout⟩ := queues_modifyInbound d family fun _ => m.inbound.take.2
    rw [hq] at hin
    exact .takesIn family n m.inbound p hq hp hfree hrunning hin hout rfl
  · have hq : d.outbound? family = some m.outbound := by rw [outbound?, hm]; rfl
    obtain ⟨hin, hout⟩ := queues_modifyOutbound d family fun _ => m.outbound.take.2
    rw [hq] at hout
    exact .takesOut family id m.outbound p hq hp hfree hrunning hin hout rfl

/-- The replies of a dispatched record are queued to be sent, and the dispatcher lets go of it. -/
theorem dispatch_flow (ha : d.act h (.dispatch family n panic) = some d') :
    Flow d d' (d.note? (.dispatch family n panic)) := by
  obtain ⟨hrunning, m, p, h', r, done, hm, hp, -, -, hdone, heq⟩ := act_dispatch ha
  have hframe : ∀ x : SessionManager, ∃ replies : List Packet,
      (x.dispatch d.timer d.now h' p).2.1.family = x.family ∧
      (x.dispatch d.timer d.now h' p).2.1.inbound = x.inbound ∧
        (x.dispatch d.timer d.now h' p).2.1.outbound =
        replies.foldl (fun q p => (q.push p).2) x.outbound := by
    intro x
    obtain ⟨⟨table, sessions, replies, hx⟩, -⟩ := x.dispatch_frame d.timer d.now h' p
    rw [hx]
    exact ⟨replies, rfl, rfl, rfl⟩
  have hin : d.inbound? family = some m.inbound := by rw [inbound?, hm]; rfl
  have hout : d.outbound? family = some m.outbound := by rw [outbound?, hm]; rfl
  have hm' : Daemon.manager? { d with timer := r.2.2.1 } family = some m := hm
  obtain ⟨hin', hout'⟩ := queues_modifyManager (f := fun x => (x.dispatch d.timer d.now h' p).2.1)
    { d with timer := r.2.2.1 } family fun x hx => (hframe x).choose_spec.1.trans hx
  obtain ⟨replies, -, hinbound, houtbound⟩ := hframe m
  rw [hm', Option.map_some, hinbound] at hin'
  rw [hm', Option.map_some, houtbound] at hout'
  have hself : update d.inbound? family (some m.inbound) = d.inbound? := by
    rw [← hin]
    exact Function.update_eq_self family d.inbound?
  have hnote : d.note? (.dispatch family n panic) = some (.dispatched family n p panic) := by
    rw [note?, hp]
    rfl
  have hlast : d'.services = done.services ∧ d'.hands = done.hands := by
    subst heq
    cases panic with
    | none => exact ⟨rfl, rfl⟩
    | some text =>
        dsimp only [Option.elim_some]
        rw [finish_eq]
        exact ⟨rfl, rfl⟩
  obtain ⟨hsameIn, hsameOut⟩ := queues_of_services hlast.1
  rw [hnote]
  refine .dispatches family n p panic m.outbound replies hp ?_ hout ?_ ?_
  · rw [hsameIn, hdone]
    exact hin'.trans hself
  · rw [hsameOut, hdone]
    exact hout'
  · rw [hlast.2, hdone]
    rfl

theorem give_flow (d : Daemon) (o : Order) (phase : Phase) :
    Flow d { d.give o with phase } none := by
  cases o with
  | signal t => exact .of_same nofun rfl rfl
  | stopTimer => exact .of_same nofun rfl rfl
  | closeInbound family =>
      obtain ⟨hin, hout⟩ := queues_modifyInbound d family Queue.close
      exact .closesIn family hin hout rfl
  | closeOutbound family =>
      obtain ⟨hin, hout⟩ := queues_modifyOutbound d family Queue.close
      exact .closesOut family hin hout rfl

theorem act_flow {a : Act} (ha : d.act h a = some d') : Flow d d' (d.note? a) := by
  have hnone : ∀ x ∈ (none : Option Note), ∃ e, x = .ended e := nofun
  have hended : ∀ e, ∀ x ∈ some (Note.ended e), ∃ e, x = .ended e := by
    rintro e x hx
    exact ⟨e, (Option.some.inj hx).symm⟩
  cases a with
  | receive family id p =>
      obtain ⟨-, rfl⟩ := act_receive ha
      obtain ⟨hin, hout⟩ := queues_modifyInbound d family fun q => (q.push p).2
      exact .receives family p hin hout rfl
  | take t => exact take_flow ha
  | dispatch family n panic => exact dispatch_flow ha
  | transmit family id delivery =>
      obtain ⟨-, p, hp, ⟨f, hnote, rfl⟩ | ⟨hnote, rfl | ⟨events, rfl⟩⟩⟩ := act_transmit_noted ha
      · rw [hnote, finish_eq]
        exact .sends family id p _ (hended _) hp rfl rfl rfl
      · rw [hnote]
        exact .of_same hnone rfl rfl
      · rw [hnote]
        exact .sends family id p _ hnone hp rfl rfl rfl
  | fail t f =>
      obtain ⟨-, -, rfl⟩ := act_fail ha
      rw [finish_eq]
      exact .of_same (hended _) rfl rfl
  | tick span =>
      obtain rfl := Option.some.inj ha
      exact .of_same hnone rfl rfl
  | pass =>
      obtain ⟨-, -, rfl⟩ := act_pass ha
      rw [pass_eq]
      exact .of_same hnone rfl rfl
  | expire job =>
      obtain ⟨-, e, -, rfl⟩ := act_expire ha
      obtain ⟨hin, hout⟩ := queues_modifyManager_same (f := fun m => (m.expire e).1) d e.family
        (fun m hm => by rw [m.expire_eq]; exact hm) fun m => by rw [m.expire_eq]; exact ⟨rfl, rfl⟩
      unfold expire
      rw [complete_eq]
      exact .still _ hnone hin hout rfl
  | reload files env =>
      obtain ⟨-, rfl⟩ := act_reload ha
      unfold reload
      cases d.reloaded? files env with
      | none => exact .still _ hnone rfl rfl rfl
      | some c =>
          obtain ⟨hin, hout⟩ :=
            queues_modifyManagers (f := fun m => { m with policy := c.settings.dispatch.policy }) d
            (fun _ => rfl) fun _ => ⟨rfl, rfl⟩
          exact .still _ hnone hin hout rfl
  | stop =>
      obtain ⟨-, rfl⟩ := act_stop ha
      exact .of_same hnone rfl rfl
  | order =>
      obtain ⟨o, left, -, rfl⟩ := act_order ha
      exact give_flow d o _
  | finish t =>
      obtain ⟨-, -, rfl⟩ := act_finish ha
      rw [finish_eq]
      exact .of_same (hended _) rfl rfl
  | join =>
      obtain ⟨joined, failed, t, job, ending, -, -, -, rfl⟩ := act_join ha
      exact .of_same hnone rfl rfl
  | closePool =>
      obtain ⟨joined, failed, -, -, rfl⟩ := act_closePool ha
      exact .of_same hnone rfl rfl
  | conclude =>
      obtain ⟨joined, failed, threads, -, -, rfl⟩ := act_conclude ha
      obtain ⟨hin, hout⟩ :=
        queues_modifyManagers (f := (·.clear.2)) d (fun _ => rfl) fun _ => ⟨rfl, rfl⟩
      exact .still _ hnone hin hout rfl

end Flow

/-! ## Custody -/

def Task.Takes : Task → Prop
  | .dispatcher _ _ | .sender _ _ => True
  | _ => False

/-- The records of a family that its dispatchers have taken. -/
def inHand (d : Daemon) (family : Family) : List Packet := d.hands.filterMap fun e =>
  match e.1 with
  | .dispatcher f _ => if f = family then some e.2 else none
  | _ => none

/-- Each loop holds one record at most, and only while it has not ended. -/
structure Held (d : Daemon) (es : List Ending) : Prop where
  once : (d.hands.map (·.1)).Nodup
  takes : ∀ t ∈ d.hands.map (·.1), Task.Takes t
  holders : ∀ t ∈ d.hands.map (·.1), t ∈ d.tasks.map (·.1) ∧ t ∉ es.map (·.1)

namespace Held

variable {crew : Nat} {es : List Ending} {t : Task} {p : Packet}

theorem not_mem_of_free (hfree : d.hand? t = none) : t ∉ d.hands.map (·.1) := by
  intro hmem
  obtain ⟨e, he, rfl⟩ := List.mem_map.mp hmem
  have hne := List.lookup_eq_none_iff.mp hfree e he
  simp at hne

/-- What is left in the hands of the others. -/
theorem perm_letGo (hd : d.Held es) (hp : d.hand? t = some p) :
    d.hands.Perm ((t, p) :: d.hands.filter (·.1 ≠ t)) ∧
      t ∉ (d.hands.filter (·.1 ≠ t)).map (·.1) := by
  obtain ⟨l, r, hlr, hl⟩ := List.lookup_eq_some_iff.mp hp
  have honce := hd.once
  rw [hlr, List.map_append, List.map_cons, List.nodup_append, List.nodup_cons] at honce
  have hleft : ∀ e ∈ l, e.1 ≠ t := by
    intro e he
    exact honce.2.2 e.1 (List.mem_map_of_mem he) t List.mem_cons_self
  have hright : ∀ e ∈ r, e.1 ≠ t := by
    intro e he hsame
    have hmem : e.1 ∈ r.map (·.1) := List.mem_map_of_mem he
    rw [hsame] at hmem
    exact honce.2.1.1 hmem
  have hfilter : d.hands.filter (·.1 ≠ t) = l ++ r := by
    rw [hlr, List.filter_append, List.filter_cons_of_neg (by simp),
      List.filter_eq_self.mpr fun e he => decide_eq_true (hleft e he),
      List.filter_eq_self.mpr fun e he => decide_eq_true (hright e he)]
  constructor
  · rw [hfilter, hlr]
    exact List.perm_middle
  · intro hmem
    obtain ⟨e, he, hsame⟩ := List.mem_map.mp hmem
    exact of_decide_eq_true (List.mem_filter.mp he).2 hsame

/-- What a loop has in its hands when it ends: nothing. -/
theorem free_of_ending {a : Act} (hd : d.Held es) (ha : d.act h a = some d') {e : Ending}
    (he : (d.note? a).bind Note.ending? = some e) : e.1 ∉ d'.hands.map (·.1) := by
  have hfree : ∀ t, ¬ Task.Takes t → d'.hands = d.hands → t ∉ d'.hands.map (·.1) := by
    intro t ht hsame hmem
    rw [hsame] at hmem
    exact ht (hd.takes t hmem)
  cases a with
  | dispatch family n panic =>
      obtain ⟨-, m, p, h', r, done, -, hp, -, -, hdone, heq⟩ := act_dispatch ha
      rw [note?, hp] at he
      cases panic with
      | none => cases he
      | some text =>
          obtain rfl := Option.some.inj he
          have hhands : d'.hands = d.hands.filter (·.1 ≠ .dispatcher family n) := by
            rw [heq, Option.elim_some, finish_eq, hdone]
            rfl
          rw [hhands]
          exact (hd.perm_letGo hp).2
  | transmit family id delivery =>
      obtain ⟨-, p, hp, ⟨f, hnote, rfl⟩ | ⟨hnote, -⟩⟩ := act_transmit_noted ha
      · rw [hnote] at he
        obtain rfl := Option.some.inj he
        rw [finish_eq]
        exact (hd.perm_letGo hp).2
      · rw [hnote] at he
        cases he
  | fail t f =>
      obtain ⟨-, hkind, rfl⟩ := act_fail ha
      obtain rfl := Option.some.inj he
      apply hfree
      · rcases hkind with ⟨family, id, rfl⟩ | rfl
        · exact fun htakes => htakes
        · exact fun htakes => htakes
      · rw [finish_eq]
        rfl
  | finish t =>
      obtain ⟨-, hdone, rfl⟩ := act_finish ha
      obtain rfl := Option.some.inj he
      have hhands : ((d.report (farewell t)).finish t (.ok (.ok ()))).hands = d.hands := by
        rw [finish_eq]
        rfl
      cases t with
      | timer => exact hfree _ (fun htakes => htakes) hhands
      | receiver _ _ => exact hfree _ (fun htakes => htakes) hhands
      | reloadWatcher => exact hfree _ (fun htakes => htakes) hhands
      | dispatcher family n =>
          rw [hhands]
          exact not_mem_of_free (Option.isNone_iff_eq_none.mp (Bool.and_eq_true_iff.mp hdone).2)
      | sender family id =>
          rw [hhands]
          exact not_mem_of_free (Option.isNone_iff_eq_none.mp (Bool.and_eq_true_iff.mp hdone).2)
  | receive family id p =>
      rw [note?] at he
      split_ifs at he
      · cases he
      · cases he
  | _ => cases he

theorem act (hd : d.Held es) (hs : d.Manned crew es) {a : Act} (ha : d.act h a = some d') :
    d'.Held (es ++ ((d.note? a).bind Note.ending?).toList) := by
  have hempty := fun e => hd.free_of_ending (e := e) ha
  have htasks := (act_frame ha).1
  have hflow := act_flow ha
  generalize d.note? a = n at hempty hflow ⊢
  have hstill : ∀ t, t ∈ d'.hands.map (·.1) → t ∉ es.map (·.1) →
      t ∉ (es ++ (n.bind Note.ending?).toList).map (·.1) := by
    intro t ht hopen hmem
    rw [List.map_append, List.mem_append] at hmem
    rcases hmem with hmem | hmem
    · exact hopen hmem
    · obtain ⟨e, he, rfl⟩ := List.mem_map.mp hmem
      exact hempty e (Option.mem_toList.mp he) ht
  have hless : d'.hands.Sublist d.hands → d'.Held (es ++ (n.bind Note.ending?).toList) := by
    intro hsub
    refine ⟨hd.once.sublist (hsub.map _), fun t ht => hd.takes t ((hsub.map _).mem ht),
      fun t ht => ?_⟩
    obtain ⟨hmem, hopen⟩ := hd.holders t ((hsub.map _).mem ht)
    exact ⟨htasks ▸ hmem, hstill t ht hopen⟩
  have hmore : ∀ t p, d'.hands = d.hands ++ [(t, p)] → Task.Takes t → d.hand? t = none →
      d.isRunning t = true →
      d'.Held (es ++ (n.bind Note.ending?).toList) := by
    intro t p hhands htakes hfree hrunning
    have hmem : ∀ u, u ∈ d'.hands.map (·.1) → u ∈ d.hands.map (·.1) ∨ u = t := by
      intro u hu
      rw [hhands, List.map_append, List.mem_append] at hu
      exact hu.imp_right List.mem_singleton.mp
    refine ⟨?_, ?_, fun u hu => ?_⟩
    · rw [hhands, List.map_append, List.nodup_append]
      refine ⟨hd.once, List.nodup_singleton _, fun u hu v hv hsame => ?_⟩
      obtain rfl : v = t := List.mem_singleton.mp hv
      exact not_mem_of_free hfree (hsame ▸ hu)
    · intro u hu
      rcases hmem u hu with hu | rfl
      · exact hd.takes u hu
      · exact htakes
    · rcases hmem u hu with hold | rfl
      · obtain ⟨hmem', hopen⟩ := hd.holders u hold
        exact ⟨htasks ▸ hmem', hstill u hu hopen⟩
      · obtain ⟨job, hjob, -⟩ := hs.isRunning_iff.mp hrunning
        exact ⟨htasks ▸ List.mem_map_of_mem hjob, hstill u hu (hs.not_ended hrunning)⟩
  cases hflow with
  | still _ hn hin hout hhands => exact hless (hhands ▸ .refl _)
  | receives family p hin hout hhands => exact hless (hhands ▸ .refl _)
  | takesIn family number q p hq hp hfree hrunning hin hout hhands =>
      exact hmore _ p hhands trivial hfree hrunning
  | takesOut family id q p hq hp hfree hrunning hin hout hhands =>
      exact hmore _ p hhands trivial hfree hrunning
  | dispatches family number p panic q replies hp hin hq hout hhands =>
      exact hless (hhands ▸ List.filter_sublist)
  | sends family id p _ hn hp hin hout hhands => exact hless (hhands ▸ List.filter_sublist)
  | closesIn family hin hout hhands => exact hless (hhands ▸ .refl _)
  | closesOut family hin hout hhands => exact hless (hhands ▸ .refl _)

end Held

/-! ## Accounts -/

/-- The accepted records of a family were dispatched, or are in the hands of a dispatcher, or wait.
And a dispatcher that ended without a panic left nothing that could still be taken. -/
structure Balanced (d : Daemon) (ns : List Note) : Prop where
  records : ∀ family q, d.inbound? family = some q →
    (accepted ns family).Perm (dispatched ns family ++ d.inHand family ++ q.items)
  drained : ∀ family n result, (Task.dispatcher family n, Except.ok result) ∈ endings ns →
    ∃ q, d.inbound? family = some q ∧ q.closed = true ∧ q.items = []

section Balance

variable {crew : Nat} {ns : List Note} {family : Family}

theorem record_of_ended {n : Option Note} (hn : ∀ x ∈ n, ∃ e, x = .ended e) (family : Family) :
    n.bind (Note.accepted? family) = none ∧ n.bind (Note.dispatched? family) = none := by
  cases n with
  | none => exact ⟨rfl, rfl⟩
  | some x =>
      obtain ⟨e, rfl⟩ := hn x rfl
      exact ⟨rfl, rfl⟩

theorem inHand_concat (hands : List (Task × Packet)) (t : Task) (p : Packet) (family : Family) :
    ({ d with hands := hands ++ [(t, p)] } : Daemon).inHand family =
      ({ d with hands } : Daemon).inHand family ++
        match t with
        | .dispatcher f _ => if f = family then [p] else []
        | _ => [] := by
  unfold inHand
  rw [List.filterMap_append]
  congr 1
  cases t with
  | dispatcher f n => by_cases hf : f = family <;> simp [hf]
  | _ => rfl

theorem inHand_of_hands {e : Daemon} (hhands : e.hands = d.hands) (family : Family) :
    e.inHand family = d.inHand family := by
  rw [inHand, hhands]
  rfl

/-- What the dispatchers of a family hold, without what one loop holds. -/
theorem Held.inHand_perm {es : List Ending} {t : Task} {p : Packet} (hd : d.Held es)
    (hp : d.hand? t = some p) (hhands : d'.hands = d.hands.filter (·.1 ≠ t)) (family : Family) :
    (d.inHand family).Perm ((match t with
      | .dispatcher f _ => if f = family then [p] else []
      | _ => []) ++ d'.inHand family) := by
  have hperm := (hd.perm_letGo hp).1.filterMap fun e : Task × Packet =>
    match e.1 with
    | .dispatcher f _ => if f = family then some e.2 else none
    | _ => none
  rw [inHand, inHand, hhands]
  apply hperm.trans
  cases t with
  | dispatcher f n => by_cases hf : f = family <;> simp [hf]
  | _ => exact .refl _

namespace Balanced

/-- A dispatcher that ends without a panic was told to, and has found nothing left. -/
theorem finish_of_ending {a : Act} (ha : d.act h a = some d') {n : Nat}
    {result : Except Failure Unit}
    (he : (d.note? a).bind Note.ending? = some (.dispatcher family n, .ok result)) :
    a = .finish (.dispatcher family n) := by
  cases a with
  | dispatch f m panic =>
      obtain ⟨-, _, p, _, _, _, -, hp, -⟩ := act_dispatch ha
      rw [note?, hp] at he
      cases panic with
      | none => cases he
      | some text => cases he
  | transmit f id delivery =>
      obtain ⟨-, p, -, ⟨reason, hnote, -⟩ | ⟨hnote, -⟩⟩ := act_transmit_noted ha
      · rw [hnote] at he
        cases he
      · rw [hnote] at he
        cases he
  | fail t f =>
      obtain ⟨-, ⟨_, _, rfl⟩ | rfl, -⟩ := act_fail ha
      · cases he
      · cases he
  | finish t =>
      obtain ⟨rfl, -⟩ := Prod.mk.inj (Option.some.inj he)
      rfl
  | receive f id p =>
      rw [note?] at he
      split_ifs at he
      · cases he
      · cases he
  | _ => cases he

theorem records_act (hb : d.Balanced ns) {es : List Ending} (hd : d.Held es) {a : Act}
    (ha : d.act h a = some d') {q' : Queue Packet} (hq' : d'.inbound? family = some q') :
    (accepted (ns ++ (d.note? a).toList) family).Perm
      (dispatched (ns ++ (d.note? a).toList) family ++ d'.inHand family ++ q'.items) := by
  have hflow := act_flow ha
  rw [accepted_concat, dispatched_concat]
  generalize d.note? a = n at hflow
  have hkeep : ∀ q, d.inbound? family = some q → q'.items = q.items →
      n.bind (Note.accepted? family) = none →
      n.bind (Note.dispatched? family) = none → (d.inHand family).Perm (d'.inHand family) →
      (accepted ns family ++ (n.bind (Note.accepted? family)).toList).Perm
        (dispatched ns family ++ (n.bind (Note.dispatched? family)).toList ++ d'.inHand family ++
          q'.items) := by
    intro q hq hitems hacc hdis hhand
    rw [hacc, hdis, Option.toList_none, List.append_nil, List.append_nil, hitems]
    exact (hb.records family q hq).trans ((hhand.append_left _).append_right _)
  cases hflow with
  | still _ hn hin hout hhands =>
      obtain ⟨hacc, hdis⟩ := record_of_ended hn family
      exact hkeep q' (hin ▸ hq') rfl hacc hdis (.of_eq (inHand_of_hands hhands family).symm)
  | receives f p hin hout hhands =>
      have hhand : (d.inHand family).Perm (d'.inHand family) :=
        .of_eq (inHand_of_hands hhands family).symm
      by_cases hf : family = f
      · subst hf
        rw [hin, Function.update_self] at hq'
        obtain ⟨q, hq, rfl⟩ := Option.map_eq_some_iff.mp hq'
        cases hclosed : q.closed with
        | true =>
            have hno : ¬ (d.inbound? family).any (!·.closed) = true := by simp [hq, hclosed]
            rw [if_neg hno] at hkeep ⊢
            exact hkeep q hq (by rw [Queue.push_of_closed hclosed]) rfl rfl hhand
        | false =>
            have hyes : (d.inbound? family).any (!·.closed) = true := by simp [hq, hclosed]
            have hnew : Note.accepted? family (.accepted family p) = some p := if_pos rfl
            rw [if_pos hyes, Queue.push_of_open hclosed, Option.bind_some, hnew]
            change (_ ++ [p]).Perm (_ ++ [] ++ d'.inHand family ++ (q.items ++ [p]))
            rw [List.append_nil, ← List.append_assoc]
            exact ((hb.records family q hq).trans
              ((hhand.append_left _).append_right _)).append_right [p]
      · rw [hin, Function.update_of_ne hf] at hq'
        refine hkeep q' hq' rfl ?_ ?_ hhand
        · split_ifs
          · exact if_neg (Ne.symm hf)
          · rfl
        · split_ifs <;> rfl
  | takesIn f number q p hq hp hfree hrunning hin hout hhands =>
      have hmore := inHand_concat (d := d) d.hands (.dispatcher f number) p family
      have hhand : d'.inHand family = d.inHand family ++ if f = family then [p] else [] := by
        rw [inHand, hhands]
        exact hmore
      by_cases hf : family = f
      · subst hf
        rw [hin, Function.update_self] at hq'
        obtain rfl := Option.some.inj hq'
        rw [hhand, if_pos rfl]
        change (_ ++ []).Perm (_ ++ [] ++ _ ++ _)
        rw [List.append_nil, List.append_nil, ← List.append_assoc, List.append_assoc _ [p]]
        exact (hb.records family q hq).trans ((Queue.take_perm hp).append_left _)
      · rw [hin, Function.update_of_ne hf] at hq'
        rw [if_neg (Ne.symm hf), List.append_nil] at hhand
        exact hkeep q' hq' rfl rfl rfl (.of_eq hhand.symm)
  | takesOut f id q p hq hp hfree hrunning hin hout hhands =>
      have hmore := inHand_concat (d := d) d.hands (.sender f id) p family
      rw [List.append_nil] at hmore
      refine hkeep q' (hin ▸ hq') rfl rfl rfl (.of_eq ?_)
      rw [inHand, inHand, hhands]
      exact hmore.symm
  | dispatches f number p panic q replies hp hin hq hout hhands =>
      have hhand := hd.inHand_perm hp hhands family
      by_cases hf : f = family
      · subst hf
        have hnew : Note.dispatched? f (.dispatched f number p panic) = some p := if_pos rfl
        rw [Option.bind_some, Option.bind_some, hnew]
        change (_ ++ []).Perm (_ ++ [p] ++ _ ++ _)
        rw [List.append_nil, List.append_assoc (dispatched ns f)]
        have hhand : (d.inHand f).Perm ([p] ++ d'.inHand f) := by simpa using hhand
        exact (hb.records f q' (hin ▸ hq')).trans ((hhand.append_left _).append_right _)
      · have hhand : (d.inHand family).Perm (d'.inHand family) := by simpa [hf] using hhand
        exact hkeep q' (hin ▸ hq') rfl rfl (if_neg hf) hhand
  | sends f id p _ hn hp hin hout hhands =>
      obtain ⟨hacc, hdis⟩ := record_of_ended hn family
      exact hkeep q' (hin ▸ hq') rfl hacc hdis (hd.inHand_perm hp hhands family)
  | closesIn f hin hout hhands =>
      have hhand : (d.inHand family).Perm (d'.inHand family) :=
        .of_eq (inHand_of_hands hhands family).symm
      by_cases hf : family = f
      · subst hf
        rw [hin, Function.update_self] at hq'
        obtain ⟨q, hq, rfl⟩ := Option.map_eq_some_iff.mp hq'
        exact hkeep q hq rfl rfl rfl hhand
      · rw [hin, Function.update_of_ne hf] at hq'
        exact hkeep q' hq' rfl rfl rfl hhand
  | closesOut f hin hout hhands =>
      exact hkeep q' (hin ▸ hq') rfl rfl rfl (.of_eq (inHand_of_hands hhands family).symm)

/-- A queue that is closed and empty stays so. -/
theorem spent_act {a : Act} (ha : d.act h a = some d') {q : Queue Packet}
    (hq : d.inbound? family = some q) (hclosed : q.closed = true) (hitems : q.items = []) :
    ∃ q', d'.inbound? family = some q' ∧ q'.closed = true ∧ q'.items = [] := by
  have hsame : d'.inbound? = d.inbound? → ∃ q', d'.inbound? family = some q' ∧ q'.closed = true ∧
      q'.items = [] :=
    fun hin => ⟨q, hin ▸ hq, hclosed, hitems⟩
  have hother : ∀ f x, family ≠ f → d'.inbound? = update d.inbound? f x →
      ∃ q', d'.inbound? family = some q' ∧ q'.closed = true ∧ q'.items = [] := by
    intro f x hf hin
    exact ⟨q, by rw [hin, Function.update_of_ne hf, hq], hclosed, hitems⟩
  have hflow := act_flow ha
  generalize d.note? a = n at hflow
  cases hflow with
  | still _ hn hin hout hhands => exact hsame hin
  | receives f p hin hout hhands =>
      by_cases hf : family = f
      · subst hf
        rw [hin, Function.update_self, hq, Option.map_some, Queue.push_of_closed hclosed]
        exact ⟨q, rfl, hclosed, hitems⟩
      · exact hother f _ hf hin
  | takesIn f number q' p hq' hp hfree hrunning hin hout hhands =>
      by_cases hf : family = f
      · subst hf
        obtain rfl := Option.some.inj (hq.symm.trans hq')
        rw [(Queue.take_eq_none_iff q).mpr hitems] at hp
        cases hp
      · exact hother f _ hf hin
  | takesOut f id q' p hq' hp hfree hrunning hin hout hhands => exact hsame hin
  | dispatches f number p panic q' replies hp hin hq' hout hhands => exact hsame hin
  | sends f id p _ hn hp hin hout hhands => exact hsame hin
  | closesIn f hin hout hhands =>
      by_cases hf : family = f
      · subst hf
        rw [hin, Function.update_self, hq, Option.map_some]
        exact ⟨q.close, rfl, rfl, hitems⟩
      · exact hother f _ hf hin
  | closesOut f hin hout hhands => exact hsame hin

theorem act (hb : d.Balanced ns) {es : List Ending} (hd : d.Held es) {a : Act}
    (ha : d.act h a = some d') :
    d'.Balanced (ns ++ (d.note? a).toList) := by
  refine ⟨fun family q' hq' => hb.records_act hd ha hq', fun family n result hmem => ?_⟩
  rw [endings_concat, List.mem_append] at hmem
  rcases hmem with hmem | hmem
  · obtain ⟨q, hq, hclosed, hitems⟩ := hb.drained family n result hmem
    exact spent_act ha hq hclosed hitems
  · obtain rfl := finish_of_ending ha (Option.mem_toList.mp hmem)
    obtain ⟨-, hdone, -⟩ := act_finish ha
    obtain ⟨q, hq, hspent⟩ := (Option.any_eq_true _ _).mp (Bool.and_eq_true_iff.mp hdone).1
    obtain ⟨hclosed, hempty⟩ := Bool.and_eq_true_iff.mp hspent
    exact spent_act ha hq hclosed (List.isEmpty_iff.mp hempty)

end Balanced

end Balance

end SessionDispatch.Daemon
