import MetricRelay.Proofs.Relay.Forwarding
import MetricRelay.Proofs.Relay.Silence

/-!
# Shutting down

A shutdown stops all tasks in turn, then the emitter, then the writer. While tasks are left the relay
is tidy; when the writer is told to close the relay is silent already, so that the flush empties the
queue unless it is cut off (`Ending.move`).

A `Life` is a relay with a session of its writer beside it, which says what was admitted and what was
passed to the destinations. The result at the end is about both: what is left of the relay, and the log.
-/

namespace MetricRelay

open Schedule

theorem HostCall.eq_idle {c : HostCall} (h : (c matches .idle) = true) : c = .idle := by
  cases c <;> first | rfl | cases h

namespace Relay

variable {σ : Type} {r r' q : Relay σ} {s : Surroundings}

/-! ## The course of a shutdown -/

/-- The final flush is cut off in between. -/
def cutsOff (r r' : Relay σ) : Bool :=
  r.writer.drain.fanOut?.isSome && r'.writer.drain.isStopped

/-- The first shutdown, under way or over. -/
inductive Ending (r : Relay σ) : Prop where
  | stopping {id : Nat} {more : List String} : r.call = .stopping id more → Tidy r →
      r.shutDown = false → Ending r
  | closing : r.call = .closing → Silent r →
      (r.writer.drain = .stopped → r.writer.queue.toList = []) → Ending r
  | returned : r.call = .idle → Ceased r → r.writer.queue.toList = [] → Ending r

theorem ending_stopNext {names : List String} (h : Tidy r) (hopen : r.shutDown = false)
    (hended : ∀ d ∈ r.scheduler.leaving, d.lane.isEmpty = true)
    (hnames : ∀ x, r.scheduler.tasks.get? x ≠ none → x ∈ names) : Ending (r.stopNext names) := by
  have htidy := h.stopNext hended hnames
  rcases r.stopNext_cases names with ⟨hnone, heq⟩ | ⟨_, name, more, t, rfl, -, -, heq⟩
  · rw [heq]
    have hempty : r.scheduler.tasks = .empty := Table.ext_get? fun x => by
      rw [Table.get?_empty]
      by_contra hx
      exact hx (hnone x (hnames x hx))
    refine .closing rfl ⟨hempty, Scheduler.leaving_forgetEnded hended, rfl, rfl⟩ fun hstop => ?_
    have hstop : r.writer.drain = .stopped := hstop
    have hflush := (h.writer hopen).flush
    rw [hstop] at hflush
    exact absurd trivial hflush
  · rw [heq] at htidy ⊢
    exact .stopping rfl htidy hopen

/-- The flush does not stop by itself before the queue is empty. -/
theorem Silent.drained {writer : Writer} {now : Nat} (h : Silent r)
    (hw : r.writer.step? s.network now = some writer)
    (hcut : ¬r.cutsOff { r with writer }) :
    Silent { r with writer } ∧ (writer.drain = .stopped → writer.queue.toList = []) := by
  have hsilent : writer.closing = true → Silent { r with writer } :=
    fun hc => ⟨h.tasks, h.leaving, h.emitter, hc⟩
  have hmove := Writer.move_of_step? hw
  cases hmove with
  | turn _ _ _ hne => exact ⟨hsilent h.closing, fun hs => absurd hs hne⟩
  | stop _ _ hempty => exact ⟨hsilent h.closing, fun _ => hempty⟩
  | @take phase _ _ hphase _ =>
    refine ⟨hsilent h.closing, fun hs => ?_⟩
    have hs : phase = .stopped := hs
    rw [hs] at hphase
    cases hphase
  | complete _ _ _ hne => exact ⟨hsilent h.closing, fun hs => absurd hs hne⟩
  | cut hf _ => exact absurd (by simp [cutsOff, hf, DrainPhase.isStopped]) hcut

variable [Collector σ]

omit [Collector σ] in
theorem drain_stopNext (r : Relay σ) (names : List String) :
    (r.stopNext names).writer.drain = r.writer.drain := by
  rcases r.stopNext_cases names with ⟨-, heq⟩ | ⟨_, _, _, _, -, -, -, heq⟩
  · rw [heq]
    rfl
  · rw [heq]
    rfl

theorem Acts.shutDown (ha : Acts s r r') : r'.shutDown = r.shutDown := by
  cases ha with
  | rest hr | lane _ _ _ hr | drain _ hr | emit _ _ _ hr =>
    obtain ⟨_, _, _, _, rfl⟩ := hr
    rfl
  | forward _ _ hr =>
    obtain ⟨_, _, _, _, rfl⟩ := hr
    unfold Relay.forward
    split <;> rfl

/-- As long as tasks are left to stop, the relay is tidy. -/
theorem ending_of_stopping {id : Nat} {more : List String} (hcall : r.call = .stopping id more)
    (h : Tidy r) (hopen : r.shutDown = false) (hm : Move s r r') : Ending r' := by
  rcases hm.cases with hact | ⟨hres, rfl⟩ | ⟨t, -, _, _, _, _, rfl⟩
  · exact .stopping (hact.call.1.trans hcall) (h.acts hact) (hact.shutDown.trans hopen)
  · rw [resume_stopping hcall]
    exact ending_stopNext h hopen (h.ended hres) (h.more id more hcall)
  · exact .stopping hcall ⟨h.parting, h.more, h.writer⟩ hopen

/-- Only the drain loop is left, and the call returns when that has stopped. -/
theorem ending_of_closing (hcall : r.call = .closing) (h : Silent r)
    (hflushed : r.writer.drain = .stopped → r.writer.queue.toList = []) (hm : Move s r r')
    (hcut : ¬r.cutsOff r') : Ending r' := by
  rcases hm.cases with hact | ⟨hres, rfl⟩ | ⟨t, -, _, _, _, _, rfl⟩
  · rcases h.acts hact with hr | ⟨writer, hw, hr⟩
    · have hsame := hr.same
      refine .closing (hact.call.1.trans hcall) (hsame.silent h) ?_
      rw [hsame.writer]
      exact hflushed
    · have hsame := hr.same
      have hkept : r'.writer = writer := hsame.writer
      obtain ⟨hdrained, hempty⟩ := h.drained hw (by
        unfold cutsOff at hcut ⊢
        rwa [hkept] at hcut)
      refine .closing (hact.call.1.trans hcall) (hsame.silent hdrained) ?_
      rw [hkept]
      exact hempty
  · have hstop : r.writer.drain = .stopped := (canResume_closing hcall).1 hres
    have hsame : Same r (r.finish (.ok ())) := ⟨rfl, rfl, rfl, rfl⟩
    rw [resume_closing hcall]
    exact .returned rfl ⟨hsame.silent h, hstop, .inl rfl⟩ (hflushed hstop)
  · exact .closing hcall ⟨h.tasks, h.leaving, h.emitter, h.closing⟩ hflushed

theorem Ending.move (h : Ending r) (hm : Move s r r') (hcut : ¬r.cutsOff r') : Ending r' := by
  cases h with
  | stopping hcall htidy hopen => exact ending_of_stopping hcall htidy hopen hm
  | closing hcall hsilent hflushed => exact ending_of_closing hcall hsilent hflushed hm hcut
  | returned hcall hceased hempty =>
    obtain ⟨hceased', hsame⟩ := hceased.move hm
    rcases hm.cases with hact | ⟨hres, -⟩ | ⟨t, -, _, _, _, _, rfl⟩
    · exact .returned (hact.call.1.trans hcall) hceased' (hsame.writer ▸ hempty)
    · exact absurd hcall (ne_idle_of_canResume hres)
    · exact .returned hcall hceased' hempty

theorem ending_begin (h : Tidy r) (hidle : r.call = .idle) (hopen : r.shutDown = false) :
    Ending (r.begin s .shutDown) :=
  ending_stopNext h hopen (h.ended_of_idle hidle) fun _ => mem_keys_of_ne_none

end Relay

/-! ## Lives -/

/-- A relay, and what can be seen of its writer. -/
structure Life (σ : Type) where
  relay : Relay σ
  session : Writer.Session

namespace Life

open Writer (Sending Event)

variable {σ : Type} {s : Surroundings} {settings : WriterSettings} {globals : Labels}
  {l l' b q : Life σ}

/-- The session goes on with the relay, by one step at most. -/
structure Goes (net : Network) (l l' : Life σ) : Prop where
  step : l'.session = l.session ∨ Writer.Step net l.session l'.session
  writer : l'.session.writer = l'.relay.writer

theorem Goes.steps {net : Network} (h : l.Goes net l') : Writer.Steps net l.session l'.session := by
  rcases h.step with heq | hstep
  · rw [heq]
    exact .refl _
  · exact .tail (.refl _) hstep

/-- The session of a relay that shuts down: nothing has been cut off. -/
structure Recorded (net : Network) (l : Life σ) : Prop where
  writer : l.session.writer = l.relay.writer
  orderly : Writer.Orderly net l.session
  uncut : ∀ c, .cut c ∉ l.session.log

theorem Recorded.goes {net : Network} (h : Recorded net l) (hg : l.Goes net l')
    (hcut : ¬l.relay.cutsOff l'.relay) : Recorded net l' where
  writer := hg.writer
  orderly := Writer.orderly_of_steps h.orderly hg.steps
  uncut c hc := by
    rcases hg.step with heq | hstep
    · rw [heq] at hc
      exact h.uncut c hc
    · rcases hstep.cut_mem hc with hold | ⟨hf, hstop⟩
      · exact h.uncut c hold
      · rw [h.writer] at hf
        rw [hg.writer] at hstop
        exact hcut (by simp [Relay.cutsOff, hf, hstop, DrainPhase.isStopped])

/-- Whatever the session so far, a step of it at most makes the one writer of the other. -/
structure Shown (net : Network) (w w' : Writer) : Prop where
  exists_step : ∀ t : Writer.Session, t.writer = w →
    ∃ t', (t' = t ∨ Writer.Step net t t') ∧ t'.writer = w'

theorem Shown.refl (net : Network) (w : Writer) : Shown net w w := ⟨fun t ht => ⟨t, .inl rfl, ht⟩⟩

theorem shown_offered {net : Network} {w w' : Writer} (h : Relay.Offered w w') :
    Shown net w w' := by
  obtain ⟨now, samples, rfl⟩ := h
  refine ⟨fun t ht => ⟨t.write now samples, .inr (.write t now samples), ?_⟩⟩
  rw [← ht]
  rfl

theorem shown_step? {net : Network} {now : Nat} {w w' : Writer} (h : w.step? net now = some w') :
    Shown net w w' :=
  ⟨fun t ht => ⟨t.moved w', .inr (.drain t (ht ▸ h)), t.moved_writer w'⟩⟩

theorem shown_close (net : Network) (w : Writer) : Shown net w { w with closing := true } := by
  refine ⟨fun t ht => ⟨t.close, .inr (.close t), ?_⟩⟩
  rw [← ht]
  rfl

theorem shown_stopNext (net : Network) (r : Relay σ) (names : List String) :
    Shown net r.writer (r.stopNext names).writer := by
  rcases r.stopNext_cases names with ⟨-, heq⟩ | ⟨_, _, _, _, -, -, -, heq⟩
  · rw [heq]
    exact shown_close ..
  · rw [heq]
    exact .refl ..

theorem exists_goes {r : Relay σ} (hw : l.session.writer = l.relay.writer)
    (h : Shown s.network l.relay.writer r.writer) : ∃ t, l.Goes s.network ⟨r, t⟩ := by
  obtain ⟨t, hstep, ht⟩ := h.exists_step l.session hw
  exact ⟨t, hstep, ht⟩

variable [Collector σ]

/-- Where a new relay can come to. -/
inductive Reachable (s : Surroundings) (settings : WriterSettings) (globals : Labels) :
    Life σ → Prop where
  | new : Reachable s settings globals ⟨.new settings globals, .start settings⟩
  | act {l l' : Life σ} : Reachable s settings globals l → Relay.HostAct s l.relay l'.relay →
      Writer.Steps s.network l.session l'.session → l'.session.writer = l'.relay.writer →
      Reachable s settings globals l'
  | move {l l' : Life σ} : Reachable s settings globals l → Relay.Move s l.relay l'.relay →
      l.Goes s.network l' → Reachable s settings globals l'

/-- The host leaves the relay alone, and the final flush is not cut off. -/
structure Alone (s : Surroundings) (l l' : Life σ) : Prop where
  move : Relay.Move s l.relay l'.relay
  inTime : ¬l.relay.cutsOff l'.relay
  goes : l.Goes s.network l'

/-- What is known of every life. -/
structure Sound (net : Network) (l : Life σ) : Prop where
  tidy : l.relay.Tidy
  writer : l.session.writer = l.relay.writer
  orderly : Writer.Orderly net l.session
  uncut : ∀ c, .cut c ∈ l.session.log → l.session.writer.drain = .stopped

theorem Reachable.sound (h : Reachable s settings globals l) : Sound s.network l := by
  induction h with
  | new =>
    exact ⟨Relay.tidy_new settings globals, rfl, Writer.orderly_start settings, fun c hc => by cases hc⟩
  | act _ hact hsteps hw ih =>
    exact ⟨ih.tidy.act hact, hw, Writer.orderly_of_steps ih.orderly hsteps, hsteps.uncut ih.uncut⟩
  | move _ hm hgoes ih =>
    exact ⟨ih.tidy.move hm, hgoes.writer, Writer.orderly_of_steps ih.orderly hgoes.steps,
      hgoes.steps.uncut ih.uncut⟩

theorem Recorded.alone (h : Recorded s.network b) (hb : b.relay.Ending)
    (hq : Relation.ReflTransGen (Alone s) b q) : Recorded s.network q ∧ q.relay.Ending := by
  induction hq with
  | refl => exact ⟨h, hb⟩
  | tail _ hstep ih => exact ⟨ih.1.goes hstep.goes hstep.inTime, ih.2.move hstep.move hstep.inTime⟩

/-! ## Relays that have a life -/

theorem shown_acts {r r' : Relay σ} (h : Relay.Acts s r r') :
    Shown s.network r.writer r'.writer := by
  cases h with
  | rest hr | lane _ _ _ hr =>
    obtain ⟨_, _, _, _, rfl⟩ := hr
    exact .refl ..
  | forward _ _ hr =>
    obtain ⟨_, _, _, _, rfl⟩ := hr
    exact shown_offered (Relay.offered_forward ..)
  | drain hw hr =>
    obtain ⟨_, _, _, _, rfl⟩ := hr
    exact shown_step? hw
  | emit _ _ hw hr =>
    obtain ⟨_, _, _, _, rfl⟩ := hr
    exact shown_offered hw

theorem shown_resume (r : Relay σ) (s : Surroundings) :
    Shown s.network r.writer (r.resume s).writer := by
  unfold Relay.resume
  cases r.call with
  | idle | removing | closing => exact .refl ..
  | configuring spec registration =>
    rw [(Relay.stopsNothing_configure r spec registration).writer]
    exact .refl ..
  | awaitingGather model registration =>
    rw [(Relay.stopsNothing_hostObserve r s model registration).writer]
    exact .refl ..
  | gathering model registration wake g =>
    rw [(Relay.stopsNothing_hostGather r model registration g.outcome g.actions).writer]
    exact .refl ..
  | stopping id more => exact shown_stopNext ..

theorem shown_move {r r' : Relay σ} (h : Relay.Move s r r') :
    Shown s.network r.writer r'.writer := by
  rcases h.cases with hact | ⟨-, rfl⟩ | ⟨t, -, _, _, _, _, rfl⟩
  · exact shown_acts hact
  · exact shown_resume ..
  · exact .refl ..

theorem Reachable.exists_shutDown (h : Reachable s settings globals l) :
    ∃ t, l.Goes s.network ⟨l.relay.begin s .shutDown, t⟩ :=
  exists_goes h.sound.writer (shown_stopNext ..)

/-- A relay that is part of a life. -/
def Arises (s : Surroundings) (settings : WriterSettings) (globals : Labels) (r : Relay σ) : Prop :=
  ∃ t, Reachable s settings globals ⟨r, t⟩

theorem arises_new (s : Surroundings) (settings : WriterSettings) (globals : Labels) :
    Arises s settings globals (.new settings globals : Relay σ) := ⟨_, .new⟩

theorem Arises.act {r r' : Relay σ} (h : Arises s settings globals r) (ha : Relay.HostAct s r r')
    (hw : r'.writer = r.writer) : Arises s settings globals r' := by
  obtain ⟨t, ht⟩ := h
  exact ⟨t, ht.act ha (.refl t) (ht.sound.writer.trans hw.symm)⟩

theorem Arises.registerCollector {r : Relay σ} (h : Arises s settings globals r) (c : σ) :
    Arises s settings globals (r.registerCollector c) := h.act (.registry _) rfl

theorem Arises.startSelfMetrics {r : Relay σ} (h : Arises s settings globals r) (region : String)
    (interval : Duration) : Arises s settings globals (r.startSelfMetrics region interval) :=
  h.act (.emitter region interval) rfl

theorem Arises.applyMonitor {r : Relay σ} (h : Arises s settings globals r)
    (hidle : r.call = .idle) (spec : MonitorSpec) :
    Arises s settings globals (r.begin s (.applyMonitor spec)) :=
  h.act (.begin _ hidle) (Relay.stopsNothing_applyMonitor r s spec).writer

theorem Arises.moves {r : Relay σ} (h : Arises s settings globals r) (z : Relay.Horizon)
    (limit : Nat) : Arises s settings globals (r.moves s z limit) := by
  induction limit generalizing r with
  | zero => exact h
  | succ limit ih =>
    unfold Relay.moves
    cases hstep : r.step? s z with
    | none => exact h
    | some r' =>
      obtain ⟨t, ht⟩ := h
      have hm : Relay.Move s r r' := .step hstep
      obtain ⟨t', hgoes⟩ := exists_goes ht.sound.writer (shown_move hm)
      exact ih ⟨t', ht.move hm hgoes⟩

/-- The final flush is cut off by none of so many moves. -/
def uncutFor (s : Surroundings) (z : Relay.Horizon) : Nat → Relay σ → Bool
  | 0, _ => true
  | limit + 1, r =>
    match r.step? s z with
    | some r' => !r.cutsOff r' && uncutFor s z limit r'
    | none => true

theorem exists_alone (z : Relay.Horizon) (limit : Nat) (hw : l.session.writer = l.relay.writer)
    (huncut : uncutFor s z limit l.relay = true) :
    ∃ t, Relation.ReflTransGen (Alone s) l ⟨l.relay.moves s z limit, t⟩ := by
  induction limit generalizing l with
  | zero => exact ⟨l.session, .refl⟩
  | succ limit ih =>
    unfold Relay.moves
    unfold uncutFor at huncut
    cases hstep : l.relay.step? s z with
    | none => exact ⟨l.session, .refl⟩
    | some r =>
      rw [hstep] at huncut
      obtain ⟨hcut, hrest⟩ := Bool.and_eq_true_iff.1 huncut
      have hm : Relay.Move s l.relay r := .step hstep
      obtain ⟨t, hgoes⟩ := exists_goes hw (shown_move hm)
      have hfirst : Alone s l ⟨r, t⟩ := ⟨hm, by simpa using hcut, hgoes⟩
      obtain ⟨t', hlater⟩ := ih (l := ⟨r, t⟩) hgoes.writer hrest
      exact ⟨t', .head hfirst hlater⟩

/-! ## All of it -/

/-- The first shutdown of a relay, begun while no other call is under way, and at any point after it
has returned; the host leaves the relay alone meanwhile, and the final flush is not cut off. No task,
no loop and no emitter is left, and the queue is empty. All that has ever been admitted to the queue
has been passed on, in turn, batch by batch, each batch to one call, and all these calls are over. From
then on nothing happens by itself, and another shutdown returns with nothing done. -/
theorem shutdown_leaves_nothing (hl : Reachable s settings globals l)
    (hidle : l.relay.call = .idle) (hopen : l.relay.shutDown = false)
    (hb : b.relay = l.relay.begin s .shutDown) (hgoes : l.Goes s.network b)
    (hq : Relation.ReflTransGen (Alone s) b q) (hover : q.relay.call = .idle) :
    (q.relay.scheduler.tasks = .empty ∧ q.relay.scheduler.leaving = [] ∧ q.relay.emitter = none ∧
      q.relay.writer.queue.toList = []) ∧
    (∃ delivered : List Sending,
      Writer.loopEvents q.session.log = delivered.flatMap Sending.turn ∧
      (delivered.map Sending.batch).flatten = Writer.admittedSeries q.session.log) ∧
    (Writer.begunCalls q.session.log).map Sending.number = List.range q.relay.writer.fanOuts ∧
    ∀ p, Relay.Moves s q.relay p → Relay.Same q.relay p ∧
      (∃ limit, ((p.begin s .shutDown).moves s .call limit).call = .idle) ∧
      ∀ e, Relay.Moves s (p.begin s .shutDown) e → Relay.Same q.relay e := by
  have hsound := hl.sound
  have hwriter := hsound.tidy.writer hopen
  have hending : b.relay.Ending := hb ▸ Relay.ending_begin hsound.tidy hidle hopen
  have hrecorded : Recorded s.network b := by
    have hdrain : b.relay.writer.drain = l.relay.writer.drain := by
      rw [hb]
      exact Relay.drain_stopNext ..
    have hcut : ¬l.relay.cutsOff b.relay := by
      unfold Relay.cutsOff
      rw [hdrain]
      cases l.relay.writer.drain <;> simp [DrainPhase.fanOut?, DrainPhase.isStopped]
    refine Recorded.goes ⟨hsound.writer, hsound.orderly, fun c hc => ?_⟩ hgoes hcut
    have hstop := hsound.uncut c hc
    rw [hsound.writer] at hstop
    have hflush := hwriter.flush
    rw [hstop] at hflush
    exact hflush trivial
  obtain ⟨hrecorded, hending⟩ := hrecorded.alone hending hq
  cases hending with
  | stopping hcall _ _ | closing hcall _ _ =>
    rw [hover] at hcall
    cases hcall
  | returned _ hceased hempty =>
    have hstop : q.session.writer.drain = .stopped := by
      rw [hrecorded.writer]
      exact hceased.stopped
    obtain ⟨delivered, hlog, hall⟩ := hrecorded.orderly.delivered_all hstop hrecorded.uncut
    rw [hrecorded.writer, hempty, List.append_nil] at hall
    have hnumbered := hrecorded.orderly.numbered
    rw [hrecorded.writer] at hnumbered
    refine ⟨⟨hceased.tasks, hceased.leaving, hceased.emitter, hempty⟩, ⟨delivered, hlog, hall⟩,
      hnumbered, fun p hp => ?_⟩
    obtain ⟨hceased', hsame⟩ := hceased.moves hp
    obtain ⟨hreturns, hmoves⟩ := hceased'.shutDown s
    exact ⟨hsame, hreturns, fun e he => hsame.trans (hmoves e he)⟩

end Life

namespace Relay

/-- Takes five milliseconds for a round. -/
def slow : ScriptedCollector where
  script.name := "a"
  script.rounds := [[.push none "x" (.int 1) .empty, .sleep 5, .push none "y" (.int 2) .empty]]

def quick : ScriptedCollector where
  script.name := "b"
  script.rounds := [[.push none "z" (.int 3) .empty]]

/-- Two monitors, and an emitter. -/
def twoMonitors : Relay ScriptedCollector :=
  (((((new { batchSize := 2 } .empty).registerCollector slow).registerCollector quick).begin calm
    (.applyMonitor { model := { name := "a" }, period := .ofSeconds 60 })).begin calm
      (.applyMonitor { model := { name := "b" }, period := .ofMillis 2 })).startSelfMetrics "r"
        (.ofMillis 60)

/-- A round of the one is in progress, and the other goes on ticking. -/
@[irreducible] def midRound : Relay ScriptedCollector := twoMonitors.moves calm (.time 1) 20

theorem arises_midRound : Life.Arises calm { batchSize := 2 } .empty midRound := by
  have hregistered : Life.Arises calm { batchSize := 2 } .empty
      (((new { batchSize := 2 } .empty).registerCollector slow).registerCollector quick) :=
    ((Life.arises_new ..).registerCollector slow).registerCollector quick
  unfold midRound
  exact (((hregistered.applyMonitor rfl _).applyMonitor rfl _).startSelfMetrics ..).moves ..

@[irreducible] def midRoundShutDown : Relay ScriptedCollector :=
  (midRound.begin calm .shutDown).moves calm .call 50

theorem midRoundShutDown_empty :
    (midRound.serving? "a").isSome = true ∧ midRoundShutDown.clock = 5 ∧
      midRoundShutDown.writer.counters.totalCount = 5 ∧
      midRoundShutDown.scheduler.tasks = .empty ∧ midRoundShutDown.emitter = none ∧
      midRoundShutDown.writer.queue.toList = [] := by
  obtain ⟨t, ht⟩ := arises_midRound
  have hidle : midRound.call = .idle := HostCall.eq_idle (by decide +kernel)
  have hopen : midRound.shutDown = false := by decide +kernel
  have hover : midRoundShutDown.call = .idle := HostCall.eq_idle (by decide +kernel)
  have huncut : Life.uncutFor calm .call 50 (midRound.begin calm .shutDown) = true := by
    decide +kernel
  have hmoves : (midRound.begin calm .shutDown).moves calm .call 50 = midRoundShutDown := by
    unfold midRoundShutDown
    rfl
  obtain ⟨t', hgoes⟩ := ht.exists_shutDown
  obtain ⟨t'', halone⟩ := Life.exists_alone .call 50 hgoes.writer huncut
  rw [hmoves] at halone
  obtain ⟨⟨htasks, -, hemitter, hqueue⟩, -⟩ :=
    Life.shutdown_leaves_nothing ht hidle hopen rfl hgoes halone hover
  exact ⟨by decide +kernel, by decide +kernel, by decide +kernel, htasks, hemitter, hqueue⟩

end Relay

end MetricRelay
