import SessionDispatch.Proofs.Daemon.Records

/-!
# Orders to end

Every loop ends on one order, and a shutdown gives every order. What was ordered stays so: a raised
notifier is not lowered, a timer that is stopped makes no pass any more, and a closed queue is not
opened again.
-/

namespace SessionDispatch.Daemon

variable {h : Handler} {d d' : Daemon} {family : Family}

open Function (update)

/-! ## Parts and their orders -/

/-- The order on which a loop ends. -/
def orderFor : Task → Order
  | .timer => .stopTimer
  | .dispatcher family _ => .closeInbound family
  | .sender family _ => .closeOutbound family
  | .receiver family id => .signal (.receiver family id)
  | .reloadWatcher => .signal .reloadWatcher

theorem isSome_manager?_iff : (d.manager? family).isSome ↔ family ∈ d.services.map (·.family) := by
  rw [manager?_eq, List.find?_isSome, List.mem_map]
  constructor
  · rintro ⟨m, hm, hfamily⟩
    obtain ⟨s, hs, rfl⟩ := List.mem_map.mp hm
    exact ⟨s, hs, of_decide_eq_true hfamily⟩
  · rintro ⟨s, hs, hfamily⟩
    exact ⟨s.manager, List.mem_map_of_mem hs, decide_eq_true hfamily⟩

/-- A service is found by its family, if the families are told apart. -/
theorem service?_of_mem (hn : (d.services.map (·.family)).Nodup) {s : FamilyService}
    (hs : s ∈ d.services) :
    d.service? s.family = some s := by
  unfold service?
  rw [List.find?_eq_some_iff_append]
  obtain ⟨before, after, hsplit⟩ := List.append_of_mem hs
  refine ⟨decide_eq_true rfl, before, after, hsplit, fun x hx => ?_⟩
  rw [hsplit, List.map_append, List.nodup_append] at hn
  have hne := hn.2.2 x.family (List.mem_map_of_mem hx) s.family List.mem_cons_self
  simpa using hne

theorem mem_orders {o : Order} : o ∈ d.orders ↔ o = .signal .reloadWatcher ∨ o = .stopTimer ∨
    ∃ s ∈ d.services, o = .closeInbound s.family ∨ o = .closeOutbound s.family ∨
      ∃ e ∈ s.endpoints, o = .signal (.receiver s.family e.id) := by
  unfold orders
  simp only [List.mem_append, List.mem_cons, List.not_mem_nil, or_false, List.mem_flatMap,
    List.mem_map, or_assoc, eq_comm (a := o)]

/-- The families are told apart, and every loop has its family, its endpoint and its order. -/
structure Wired (d : Daemon) : Prop where
  families : (d.services.map (·.family)).Nodup
  ordered : ∀ t ∈ d.tasks.map (·.1), orderFor t ∈ d.orders
  senders : ∀ family id, .sender family id ∈ d.tasks.map (·.1) →
    ∃ e, (d.endpoints family).find? (·.id = id) = some e

namespace Wired

theorem act (hd : d.Wired) {a : Act} (ha : d.act h a = some d') : d'.Wired := by
  obtain ⟨htasks, -, hshape⟩ := act_frame ha
  refine ⟨?_, ?_, ?_⟩
  · rw [hshape.families]
    exact hd.families
  · rw [htasks, hshape.orders]
    exact hd.ordered
  · intro family id hmem
    rw [htasks] at hmem
    rw [hshape.endpoints]
    exact hd.senders family id hmem

theorem isSome_of_close {o : Order} (ho : o = .closeInbound family ∨ o = .closeOutbound family)
    (hmem : o ∈ d.orders) :
    (d.manager? family).isSome := by
  rw [isSome_manager?_iff]
  rcases mem_orders.mp hmem with rfl | rfl | ⟨s, hs, rfl | rfl | ⟨e, -, rfl⟩⟩
  · simp at ho
  · simp at ho
  · have hfamily : s.family = family := by simpa using ho
    exact hfamily ▸ List.mem_map_of_mem hs
  · have hfamily : s.family = family := by simpa using ho
    exact hfamily ▸ List.mem_map_of_mem hs
  · simp at ho

theorem dispatcher (hd : d.Wired) {n : Nat} (hmem : .dispatcher family n ∈ d.tasks.map (·.1)) :
    ∃ m, d.manager? family = some m :=
  Option.isSome_iff_exists.mp (isSome_of_close (.inl rfl) (hd.ordered _ hmem))

end Wired

/-! ## Queues that stay closed -/

def Shut (q? : Option (Queue Packet)) : Prop := ∃ q, q? = some q ∧ q.closed = true

namespace Shut

theorem map {q? : Option (Queue Packet)} (hq : Shut q?) {f : Queue Packet → Queue Packet}
    (hf : ∀ q, q.closed = true → (f q).closed = true) : Shut (q?.map f) := by
  obtain ⟨q, rfl, hclosed⟩ := hq
  exact ⟨f q, rfl, hf q hclosed⟩

theorem update {q? : Family → Option (Queue Packet)} (hq : Shut (q? family)) {other : Family}
    {x : Option (Queue Packet)} (hx : other = family → Shut x) :
    Shut (update q? other x family) := by
  by_cases hother : family = other
  · subst hother
    rw [Function.update_self]
    exact hx rfl
  · rw [Function.update_of_ne hother]
    exact hq

theorem inbound (hq : Shut (d.inbound? family)) {n : Option Note} (hflow : Flow d d' n) :
    Shut (d'.inbound? family) := by
  cases hflow with
  | still _ hn hin hout hhands => exact hin ▸ hq
  | receives f p hin hout hhands =>
      rw [hin]
      apply hq.update
      rintro rfl
      exact hq.map fun q hclosed => by rw [Queue.push_of_closed hclosed]; exact hclosed
  | takesIn f number q p hq' hp hfree hrunning hin hout hhands =>
      rw [hin]
      apply hq.update
      rintro rfl
      obtain ⟨q', hsame, hclosed⟩ := hq
      obtain rfl := Option.some.inj (hq'.symm.trans hsame)
      exact ⟨_, rfl, (Queue.take_closed q).trans hclosed⟩
  | takesOut f id q p hq' hp hfree hrunning hin hout hhands => exact hin ▸ hq
  | dispatches f number p panic q replies hp hin hq' hout hhands => exact hin ▸ hq
  | sends f id p _ hn hp hin hout hhands => exact hin ▸ hq
  | closesIn f hin hout hhands =>
      rw [hin]
      apply hq.update
      rintro rfl
      exact hq.map fun q _ => q.closed_close
  | closesOut f hin hout hhands => exact hin ▸ hq

theorem outbound (hq : Shut (d.outbound? family)) {n : Option Note} (hflow : Flow d d' n) :
    Shut (d'.outbound? family) := by
  cases hflow with
  | still _ hn hin hout hhands => exact hout ▸ hq
  | receives f p hin hout hhands => exact hout ▸ hq
  | takesIn f number q p hq' hp hfree hrunning hin hout hhands => exact hout ▸ hq
  | takesOut f id q p hq' hp hfree hrunning hin hout hhands =>
      rw [hout]
      apply hq.update
      rintro rfl
      obtain ⟨q', hsame, hclosed⟩ := hq
      obtain rfl := Option.some.inj (hq'.symm.trans hsame)
      exact ⟨_, rfl, (Queue.take_closed q).trans hclosed⟩
  | dispatches f number p panic q replies hp hin hq' hout hhands =>
      rw [hout]
      apply hq.update
      rintro rfl
      obtain ⟨q', hsame, hclosed⟩ := hq
      obtain rfl := Option.some.inj (hq'.symm.trans hsame)
      refine ⟨_, rfl, ?_⟩
      rw [Queue.foldl_push, if_pos hclosed]
      exact hclosed
  | sends f id p _ hn hp hin hout hhands => exact hout ▸ hq
  | closesIn f hin hout hhands => exact hout ▸ hq
  | closesOut f hin hout hhands =>
      rw [hout]
      apply hq.update
      rintro rfl
      exact hq.map fun q _ => q.closed_close

end Shut

/-! ## Orders that are obeyed -/

def Obeyed (d : Daemon) : Order → Prop
  | .signal t => t ∈ d.signals
  | .stopTimer => d.timer.stopped = true
  | .closeInbound family => Shut (d.inbound? family)
  | .closeOutbound family => Shut (d.outbound? family)

def pending (d : Daemon) : List Order :=
  match d.phase with
  | .running => d.orders
  | .stopping left => left
  | _ => []

/-- What an act is to the orders: it gives the next one, or leaves them alone. -/
inductive Telling (d d' : Daemon) : Prop
  | quiet (hpending : d'.pending = d.pending) (hstopped : d.timer.stopped = true →
      d'.timer.stopped = true)
      (hsignals : d.signals ⊆ d'.signals)
  | gives (o : Order) (left : List Order) (hphase : d.phase = .stopping (o :: left))
      (h : d' = { d.give o with phase := .ofOrders left })

theorem pending_ofOrders (left : List Order) :
    ({ d with phase := .ofOrders left } : Daemon).pending = left := by
  cases left <;> rfl

theorem act_telling {a : Act} (ha : d.act h a = some d') : Telling d d' := by
  have hquiet : d'.phase = d.phase → d'.timer.stopped = d.timer.stopped → d'.signals = d.signals →
      Telling d d' := by
    intro hphase hstopped hsignals
    refine .quiet ?_ (fun h => hstopped.trans h) (hsignals ▸ List.Subset.refl _)
    rw [pending, pending, hphase, (act_frame ha).2.2.orders]
  have hjoining : ∀ joined failed, d.phase = .joining joined failed → d'.timer = d.timer →
      d'.signals = d.signals →
      d'.pending = [] → Telling d d' := by
    intro joined failed hphase htimer hsignals hpending
    refine .quiet ?_ (fun h => (congrArg _ htimer).trans h) (hsignals ▸ List.Subset.refl _)
    rw [hpending, pending, hphase]
  cases a with
  | receive family id p =>
      obtain ⟨-, rfl⟩ := act_receive ha
      exact hquiet rfl rfl rfl
  | take t =>
      obtain ⟨-, -, family, m, p, -, ⟨-, -, rfl⟩ | ⟨-, -, rfl⟩⟩ := act_take ha
      · exact hquiet rfl rfl rfl
      · exact hquiet rfl rfl rfl
  | dispatch family n panic =>
      obtain ⟨-, m, p, h', r, done, -, -, -, hr, hdone, heq⟩ := act_dispatch ha
      have hstopped : r.2.2.1.stopped = d.timer.stopped := by
        rw [hr]
        exact (m.dispatch_frame d.timer d.now h' p).2
      cases panic with
      | none =>
          obtain rfl : d' = done := heq
          rw [hdone] at hquiet ⊢
          exact hquiet rfl hstopped rfl
      | some text =>
          rw [Option.elim_some, finish_eq] at heq
          rw [heq, hdone] at hquiet ⊢
          exact hquiet rfl hstopped rfl
  | transmit family id delivery =>
      obtain ⟨-, e, p, -, -, ⟨reason, -, -, rfl⟩ | ⟨-, -, rfl⟩ | ⟨-, events, rfl⟩⟩ :=
        act_transmit ha
      · rw [finish_eq] at hquiet ⊢
        exact hquiet rfl rfl rfl
      · exact hquiet rfl rfl rfl
      · exact hquiet rfl rfl rfl
  | fail t f =>
      obtain ⟨-, -, rfl⟩ := act_fail ha
      rw [finish_eq] at hquiet ⊢
      exact hquiet rfl rfl rfl
  | tick span =>
      obtain rfl := Option.some.inj ha
      exact hquiet rfl rfl rfl
  | pass =>
      obtain ⟨-, -, rfl⟩ := act_pass ha
      rw [pass_eq] at hquiet ⊢
      exact hquiet rfl rfl rfl
  | expire job =>
      obtain ⟨-, e, -, rfl⟩ := act_expire ha
      unfold expire at hquiet ⊢
      rw [complete_eq] at hquiet ⊢
      exact hquiet rfl rfl rfl
  | reload files env =>
      obtain ⟨-, rfl⟩ := act_reload ha
      unfold reload at hquiet ⊢
      cases hc : d.reloaded? files env with
      | none =>
          rw [hc] at hquiet
          exact hquiet rfl rfl rfl
      | some c =>
          rw [hc] at hquiet
          exact hquiet rfl rfl rfl
  | stop =>
      obtain ⟨hphase, rfl⟩ := act_stop ha
      refine .quiet ?_ id (List.Subset.refl _)
      rw [pending_ofOrders, pending, hphase]
  | order =>
      obtain ⟨o, left, hphase, rfl⟩ := act_order ha
      exact .gives o left hphase rfl
  | finish t =>
      obtain ⟨-, -, rfl⟩ := act_finish ha
      rw [finish_eq] at hquiet ⊢
      exact hquiet rfl rfl rfl
  | join =>
      obtain ⟨joined, failed, t, job, ending, hphase, -, -, rfl⟩ := act_join ha
      exact hjoining joined failed hphase rfl rfl rfl
  | closePool =>
      obtain ⟨joined, failed, hphase, -, rfl⟩ := act_closePool ha
      exact hjoining joined failed hphase rfl rfl rfl
  | conclude =>
      obtain ⟨joined, failed, threads, hphase, -, rfl⟩ := act_conclude ha
      refine .quiet ?_ id (List.Subset.refl _)
      rw [pending, pending, hphase]
      rfl

/-- An order is obeyed when it is given. -/
theorem obeyed_give {o : Order} (ho : o ∈ d.orders) : (d.give o).Obeyed o := by
  cases o with
  | signal t => exact List.mem_append_right _ List.mem_cons_self
  | stopTimer => rfl
  | closeInbound family =>
      obtain ⟨m, hm⟩ := Option.isSome_iff_exists.mp (Wired.isSome_of_close (.inl rfl) ho)
      obtain ⟨hin, -⟩ := queues_modifyInbound d family Queue.close
      refine ⟨m.inbound.close, ?_, rfl⟩
      rw [give, hin, Function.update_self, inbound?, hm]
      rfl
  | closeOutbound family =>
      obtain ⟨m, hm⟩ := Option.isSome_iff_exists.mp (Wired.isSome_of_close (.inr rfl) ho)
      obtain ⟨-, hout⟩ := queues_modifyOutbound d family Queue.close
      refine ⟨m.outbound.close, ?_, rfl⟩
      rw [give, hout, Function.update_self, outbound?, hm]
      rfl

/-- What was obeyed stays so. -/
theorem Obeyed.act {o : Order} (ho : d.Obeyed o) {a : Act} (ha : d.act h a = some d') :
    d'.Obeyed o := by
  cases o with
  | signal t =>
      cases act_telling ha with
      | quiet hpending hstopped hsignals => exact hsignals ho
      | gives o left hphase heq =>
          subst heq
          cases o with
          | signal u => exact List.mem_append_left _ ho
          | _ => exact ho
  | stopTimer =>
      cases act_telling ha with
      | quiet hpending hstopped hsignals => exact hstopped ho
      | gives o left hphase heq =>
          subst heq
          cases o with
          | stopTimer => rfl
          | _ => exact ho
  | closeInbound family => exact Shut.inbound ho (act_flow ha)
  | closeOutbound family => exact Shut.outbound ho (act_flow ha)

/-- Every order is still to be given or is obeyed. -/
structure Told (d : Daemon) : Prop where
  given : ∀ o ∈ d.orders, o ∈ d.pending ∨ d.Obeyed o
  known : d.pending ⊆ d.orders
  begun : d.phase ≠ .stopping []

theorem Told.of_running (hphase : d.phase = .running) : d.Told := by
  have hpending : d.pending = d.orders := by rw [pending, hphase]
  exact ⟨fun o ho => .inl (hpending ▸ ho), hpending ▸ List.Subset.refl _, hphase ▸ nofun⟩

/-- A shutdown that has begun has orders left, or has come to the tasks. -/
theorem Phase.Turn.begun {phase phase' : Phase} (ht : Phase.Turn phase phase')
    (hbegun : phase ≠ .stopping []) :
    phase' ≠ .stopping [] := by
  cases ht with
  | stays phase => exact hbegun
  | tells left hbefore => cases left <;> exact nofun
  | joins joined failed failed' => exact nofun
  | closes joined failed threads => exact nofun
  | concludes joined failed threads dropped => exact nofun

theorem Told.act (hd : d.Told) {a : Act} (ha : d.act h a = some d') : d'.Told := by
  have horders := (act_frame ha).2.2.orders
  have hkeep : ∀ o, d.Obeyed o → d'.Obeyed o := fun o ho => ho.act ha
  cases act_telling ha with
  | quiet hpending hstopped hsignals =>
      refine ⟨?_, ?_, (act_course ha).turn.begun hd.begun⟩
      · intro o ho
        rw [hpending]
        exact (hd.given o (horders ▸ ho)).imp_right (hkeep o)
      · rw [hpending, horders]
        exact hd.known
  | gives o left hphase heq =>
      have hbefore : d.pending = o :: left := by rw [pending, hphase]
      have hafter : d'.pending = left := by
        rw [heq]
        exact pending_ofOrders left
      have hgiven : d'.Obeyed o := by
        have hobeyed := obeyed_give (hd.known (hbefore ▸ List.mem_cons_self))
        rw [heq]
        cases o <;> exact hobeyed
      refine ⟨?_, ?_, (act_course ha).turn.begun hd.begun⟩
      · intro x hx
        rw [hafter]
        rcases hd.given x (horders ▸ hx) with hpending | hobeyed
        · rw [hbefore] at hpending
          rcases List.mem_cons.mp hpending with rfl | hleft
          · exact .inr hgiven
          · exact .inl hleft
        · exact .inr (hkeep x hobeyed)
      · rw [hafter, horders]
        exact fun x hx => hd.known (hbefore ▸ List.mem_cons_of_mem _ hx)

end SessionDispatch.Daemon
