/-
Dispatching is handling one after another. Of the programs in the store, those whose cast has
the address run, in the order of their ids, and each of them as if it had been asked for by
itself at that point. What one run leaves to the next is the queue and the network; the
variables, events, halts and errors of a run stay in it, and so does what it makes of the
event.

Times are left out: the clock shows what it shows. Hosts are compared that may differ in the
clock and in the log, since no run depends on either.
-/
import EventScript.Proofs.Host.Soundness
import EventScript.Proofs.Machine.Timeless

namespace EventScript

open Store (Record record?)

/-- The report with its events at no time in particular. -/
def Report.untimed (r : Report) : Report := { r with events := r.events.map Event.untimed }

theorem Report.ofRun_untimed (id : String) (result : Except RunError Status) (m : Machine) :
    (Report.ofRun id result m).untimed = .ofRun id result m.timeless := rfl

namespace Host

variable {σ : Type}

-- ============================================================= hosts alike

/-- The two hosts have the same programs, rules and services; the log and the clock may
differ. -/
structure Alike (h h' : Host σ) : Prop where
  store : h'.store = h.store
  rules : h.SameRules h'
  services : h.world.SameServices h'.world

theorem Alike.refl (h : Host σ) : h.Alike h := ⟨rfl, .refl h, ⟨rfl, rfl⟩⟩

theorem Alike.atTime {h h' : Host σ} (ha : h.Alike h') (now : Timestamp) :
    h.Alike (h'.atTime now) :=
  ⟨ha.store, ha.rules.trans (h'.atTime_sameRules now), ⟨ha.services.queue, ha.services.network⟩⟩

/-- A program does the same on hosts of the same rules and services, and leaves them with the
same services. -/
theorem run_untimed {h h' : Host σ} (hr : h.SameRules h') (hw : h.world.SameServices h'.world)
    (r : Record) (p : Program) (event : Json) :
    (h'.run r p event).1.untimed = (h.run r p event).1.untimed
      ∧ (h.run r p event).2.world.SameServices (h'.run r p event).2.world := by
  obtain ⟨hresult, hafter⟩ := Machine.execute_load_timeless (k := .new h.settings h.world)
    (m := .new h'.settings h'.world) hr.settings.symm hw p r.cast (some event)
  unfold Host.run
  dsimp only
  refine ⟨?_, ⟨?_, ?_⟩⟩
  · rw [Report.ofRun_untimed, Report.ofRun_untimed, hresult, hafter]
  · exact Machine.timeless_blind.queue_eq hafter
  · exact Machine.timeless_blind.network_eq hafter

variable [Store σ]

/-- Runs programs on an event one after another, each at its time: the answers, and the host
afterwards. -/
def handleEach (event : Json) :
    List (Timestamp × String) → Host σ → List (Except HostError Report) × Host σ
  | [], h => ([], h)
  | (now, id) :: rest, h =>
    let (answer, h) := (h.atTime now).handleEvent id event
    let (answers, h) := handleEach event rest h
    (answer :: answers, h)

/-- The program of the id is there, and its cast has the address, in any case. -/
def Hears (h : Host σ) (address id : String) : Prop :=
  ∃ r a, record? h.store id = some r ∧ r.cast.address = some a
    ∧ Text.equalIgnoringAsciiCase a address = true

/-- What dispatching answers with, compared with the answers to each program on its own. -/
structure Dispatched (h : Host σ) (address : String) (event : Json) (reports : List Report) :
    Prop where
  /-- There is one report for each program that listens, in the order of the ids. -/
  ascending : (reports.map Report.programId).Pairwise (· < ·)
  listeners : ∀ id, id ∈ reports.map Report.programId ↔ h.Hears address id
  /-- The programs answer the same when they are asked one after another, whenever that is. -/
  each : ∀ (h' : Host σ) (schedule : List (Timestamp × String)), h.Alike h' →
    schedule.map Prod.snd = reports.map Report.programId →
    (handleEach event schedule h').1.map (Except.map Report.untimed)
        = reports.map (fun report => .ok report.untimed)
      ∧ (h.dispatch address event).2.Alike (handleEach event schedule h').2
  /-- A program answers the same on any host that has it, and that has the services as the
  runs before it leave them. -/
  isolated : ∀ (earlier later : List Report) (report : Report)
    (schedule : List (Timestamp × String)), reports = earlier ++ report :: later →
    schedule.map Prod.snd = earlier.map Report.programId →
    ∀ g : Host σ, record? g.store report.programId = record? h.store report.programId →
      h.SameRules g → (handleEach event schedule h).2.world.SameServices g.world →
      (g.handleEvent report.programId event).1.map Report.untimed = .ok report.untimed

-- ============================================================== one by one

theorem handleEach_append (event : Json) (s t : List (Timestamp × String)) (h : Host σ) :
    handleEach event (s ++ t) h
      = ((handleEach event s h).1 ++ (handleEach event t (handleEach event s h).2).1,
          (handleEach event t (handleEach event s h).2).2) := by
  induction s generalizing h with
  | nil => rfl
  | cons x s ih =>
      obtain ⟨now, id⟩ := x
      simp only [List.cons_append, handleEach]
      rw [ih]

/-- There is one answer for each id. -/
theorem handleEach_length (event : Json) (s : List (Timestamp × String)) (h : Host σ) :
    (handleEach event s h).1.length = s.length := by
  induction s generalizing h with
  | nil => rfl
  | cons x s ih =>
      obtain ⟨now, id⟩ := x
      simp only [handleEach, List.length_cons, ih]

theorem handleEach_store (event : Json) (s : List (Timestamp × String)) (h : Host σ) :
    (handleEach event s h).2.store = h.store := by
  induction s generalizing h with
  | nil => rfl
  | cons x s ih =>
      obtain ⟨now, id⟩ := x
      exact (ih ((h.atTime now).handleEvent id event).2).trans
        ((h.atTime now).handleEvent_store id event)

theorem handleEach_sameRules (event : Json) (s : List (Timestamp × String)) (h : Host σ) :
    h.SameRules (handleEach event s h).2 := by
  induction s generalizing h with
  | nil => exact .refl h
  | cons x s ih =>
      obtain ⟨now, id⟩ := x
      have hone := (h.atTime_sameRules now).trans ((h.atTime now).handleEvent_sameRules id event)
      exact hone.trans (ih ((h.atTime now).handleEvent id event).2)

/-- A program answers the same on hosts that both have it and the same rules and services. -/
theorem handleEvent_untimed {h h' : Host σ} {id : String} {r : Record} {p : Program}
    (hp : h.compile r.source = .ok p) (hr' : record? h'.store id = some r) (hrules : h.SameRules h')
    (hw : h.world.SameServices h'.world) (event : Json) :
    (h'.handleEvent id event).1.map Report.untimed = .ok (h.run r p event).1.untimed
      ∧ (h.run r p event).2.world.SameServices (h'.handleEvent id event).2.world := by
  obtain ⟨hreport, hservices⟩ := run_untimed hrules hw r p event
  rw [handleEvent_of_record hr' ((compile_congr hrules _).trans hp)]
  exact ⟨congrArg Except.ok hreport, hservices⟩

-- ============================================================== dispatching

/-- Whether dispatching to the address runs the program of the id. -/
def hears (h : Host σ) (address id : String) : Bool :=
  (record? h.store id).any fun r => listens r address

/-- Dispatching reaches a record that listens at the address, in either case of letters. -/
theorem hears_iff {h : Host σ} {address id : String} :
    h.hears address id = true ↔ h.Hears address id := by
  simp [hears, Hears, listens, Option.any_eq_true]

/-- The first id is served if it listens, and then the others. -/
theorem dispatchTo_cons {address : String} {event : Json} {id : String} {rest : List String}
    {h : Host σ} {r : Record} {p : Program} (hr : record? h.store id = some r)
    (hp : h.compile r.source = .ok p) :
    dispatchTo address event (id :: rest) h
      = if h.hears address id then
          ((dispatchTo address event rest (h.run r p event).2).1.map ((h.run r p event).1 :: ·),
            (dispatchTo address event rest (h.run r p event).2).2)
        else dispatchTo address event rest h := by
  rw [dispatchTo, Store.get_eq_ok_iff.mpr hr]
  unfold hears
  rw [hr]
  dsimp only [Option.any]
  rw [hp]

/-- Programs that are there and compile are dispatched to as they are handled one by one.
The induction is along the ids; the host that handles one by one stays like the one that
dispatches. -/
theorem dispatchTo_agrees {address : String} {event : Json} {ids : List String} {h : Host σ}
    (hids : ∀ id ∈ ids, ∃ r, record? h.store id = some r ∧ r.id = id ∧ h.Compiles r.source) :
    ∃ reports, (dispatchTo address event ids h).1 = .ok reports
      ∧ reports.map Report.programId = ids.filter (h.hears address)
      ∧ ∀ (h' : Host σ) (schedule : List (Timestamp × String)), h.Alike h' →
        schedule.map Prod.snd = reports.map Report.programId →
        (handleEach event schedule h').1.map (Except.map Report.untimed)
            = reports.map (fun report => .ok report.untimed)
          ∧ (dispatchTo address event ids h).2.Alike (handleEach event schedule h').2 := by
  induction ids generalizing h with
  | nil =>
      refine ⟨[], rfl, rfl, ?_⟩
      intro h' schedule ha hschedule
      rw [List.map_eq_nil_iff.mp hschedule]
      exact ⟨rfl, ha⟩
  | cons id rest ih =>
      obtain ⟨r, hr, hid, p, hp⟩ := hids id (List.mem_cons_self ..)
      have hrest := fun i hi => hids i (List.mem_cons_of_mem _ hi)
      rw [dispatchTo_cons hr hp, List.filter_cons]
      by_cases hl : h.hears address id = true
      · rw [if_pos hl, if_pos hl]
        obtain ⟨reports, hanswer, hlisted, hagrees⟩ := ih (h := (h.run r p event).2) hrest
        refine ⟨(h.run r p event).1 :: reports, ?_, ?_, ?_⟩
        · rw [hanswer]
          rfl
        · rw [List.map_cons, hlisted]
          exact congrArg (· :: _) hid
        · intro h' schedule ha hschedule
          obtain ⟨⟨now, id'⟩, schedule, rfl, hfirst, hlater⟩ := List.map_eq_cons_iff.mp hschedule
          obtain rfl : id' = id := hfirst.trans hid
          -- from here on the two hosts differ in their clocks only
          have ha' := ha.atTime now
          have hr' : record? (h'.atTime now).store id' = some r := by rw [ha'.store, hr]
          obtain ⟨hreport, hservices⟩ :=
            handleEvent_untimed hp hr' ha'.rules ha'.services event
          have hrules := ha'.rules.trans ((h'.atTime now).handleEvent_sameRules id' event)
          have hafter : (h.run r p event).2.Alike ((h'.atTime now).handleEvent id' event).2 :=
            ⟨((h'.atTime now).handleEvent_store id' event).trans ha'.store,
              ⟨hrules.registry, hrules.settings⟩, hservices⟩
          obtain ⟨hreports, hend⟩ := hagrees _ schedule hafter hlater
          refine ⟨?_, hend⟩
          rw [handleEach, List.map_cons, List.map_cons, hreport, hreports]
      · rw [if_neg hl, if_neg hl]
        exact ih hrest

/-- If the answers one by one are the reports, a report is what any host answers that has the
program, the rules, and the services as the runs before leave them. -/
theorem isolated_of_each {h : Host σ} {event : Json} {earlier later : List Report}
    {report : Report} {schedule : List (Timestamp × String)}
    (hthere : ∃ r, record? h.store report.programId = some r ∧ h.Compiles r.source)
    (heach : ∀ s : List (Timestamp × String),
      s.map Prod.snd = (earlier ++ report :: later).map Report.programId →
      (handleEach event s h).1.map (Except.map Report.untimed)
        = (earlier ++ report :: later).map (fun report => .ok report.untimed))
    (hschedule : schedule.map Prod.snd = earlier.map Report.programId) {g : Host σ}
    (hg : record? g.store report.programId = record? h.store report.programId)
    (hrules : h.SameRules g)
    (hw : (handleEach event schedule h).2.world.SameServices g.world) :
    (g.handleEvent report.programId event).1.map Report.untimed = .ok report.untimed := by
  obtain ⟨r, hr, p, hp⟩ := hthere
  have hstore := handleEach_store event schedule h
  have hkept := handleEach_sameRules event schedule h
  let before := (handleEach event schedule h).2.atTime .epoch
  have hr' : record? before.store report.programId = some r := by
    show record? (handleEach event schedule h).2.store _ = _
    rw [hstore, hr]
  have hbefore : h.SameRules before :=
    hkept.trans ((handleEach event schedule h).2.atTime_sameRules _)
  have hp' : before.compile r.source = .ok p := (compile_congr hbefore _).trans hp
  -- the report is the answer of the host that the runs before leave
  have hanswer : (before.run r p event).1.untimed = report.untimed := by
    have hwhole := heach (schedule ++ (.epoch, report.programId)
      :: later.map fun report => (.epoch, report.programId)) (by simp [hschedule])
    have hlength : schedule.length = earlier.length := by
      simpa using congrArg List.length hschedule
    rw [handleEach_append, List.map_append, List.map_append] at hwhole
    have hlast := (List.append_inj hwhole (by simp [handleEach_length, hlength])).2
    rw [handleEach, List.map_cons, List.map_cons] at hlast
    have hhead := (List.cons.inj hlast).1
    rw [handleEvent_of_record hr' hp'] at hhead
    exact Except.ok.inj hhead
  have hsame : before.SameRules g :=
    ⟨hrules.registry.trans hkept.registry.symm, hrules.settings.trans hkept.settings.symm⟩
  rw [(handleEvent_untimed hp' (hg.trans hr) hsame ⟨hw.queue, hw.network⟩ event).1, hanswer]

-- ================================================================= reports

/-- A host whose records are its own answers a dispatch with a report for each program that
listens, as it would have handled them. -/
theorem Kept.dispatched {Sound : σ → Prop} {Holds : Record → Prop}
    (laws : Store.Laws σ Sound Holds) {h : Host σ} (hk : h.Kept Sound) (address : String)
    (event : Json) :
    ∃ reports, (h.dispatch address event).1 = .ok reports
      ∧ h.Dispatched address event reports := by
  obtain ⟨ids, hlist, hascending, hids⟩ := laws.list hk.sound
  have hdispatch : h.dispatch address event = dispatchTo address event ids h := by
    unfold dispatch
    rw [hlist]
  have hstored : ∀ id ∈ ids,
      ∃ r, record? h.store id = some r ∧ r.id = id ∧ h.Compiles r.source := by
    intro id hid
    obtain ⟨r, hr⟩ := Option.isSome_iff_exists.mp ((hids id).mp hid)
    exact ⟨r, hr, (hk.own hr).1, (hk.own hr).2.2⟩
  obtain ⟨reports, hanswer, hlisted, heach⟩ := dispatchTo_agrees hstored
  rw [← hdispatch] at hanswer heach
  have hlisteners : ∀ id, id ∈ reports.map Report.programId ↔ h.Hears address id := by
    intro id
    rw [hlisted, List.mem_filter, hears_iff, and_iff_right_iff_imp]
    intro hhears
    obtain ⟨r, a, hr, -⟩ := hhears
    exact (hids id).mpr (by rw [hr]; rfl)
  refine ⟨reports, hanswer, ⟨?_, hlisteners, heach, ?_⟩⟩
  · rw [hlisted]
    exact hascending.filter _
  · intro earlier later report schedule hreports hschedule g hg hrules hw
    subst hreports
    obtain ⟨r, -, hr, -⟩ := (hlisteners report.programId).mp (by simp)
    exact isolated_of_each ⟨r, hr, (hk.own hr).2.2⟩ (fun s hs => (heach h s (.refl h) hs).1)
      hschedule hg hrules hw

end Host
end EventScript
