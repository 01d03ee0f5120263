import MetricRelay.Proofs.Writer.Fifo

/-!
# Accounts of the counters

Every counter of a writer is a sum over the log (`tally`): of what was offered, of what was rejected,
of what completed calls handed to destinations. `Accounts` says so of a session and holds after every
step (`accounts_of_steps`).
-/

namespace MetricRelay

/-- No counter but the length of the queue has decreased. -/
structure Counters.Grown (c d : Counters) : Prop where
  totalCount : c.totalCount ≤ d.totalCount
  failCount : c.failCount ≤ d.failCount
  failTotal : c.failTotal ≤ d.failTotal
  writeTotal : c.writeTotal ≤ d.writeTotal
  writeFailTotal : c.writeFailTotal ≤ d.writeFailTotal

theorem Counters.Grown.trans {c d e : Counters} (h : c.Grown d) (h' : d.Grown e) : c.Grown e where
  totalCount := Nat.le_trans h.totalCount h'.totalCount
  failCount := Nat.le_trans h.failCount h'.failCount
  failTotal := Nat.le_trans h.failTotal h'.failTotal
  writeTotal := Nat.le_trans h.writeTotal h'.writeTotal
  writeFailTotal := Nat.le_trans h.writeFailTotal h'.writeFailTotal

namespace Writer

/-! ## Sums over a log -/

/-- How many destinations do not get the batch. -/
def Sending.failures (c : Sending) (net : Network) : Nat :=
  c.destinations.entries.countP fun e => (e.2.write net c.number c.batch).2 matches .error _

namespace Event

/-- Series offered to the queue. -/
@[simp] def offeredCount : Event → Nat
  | .offered series _ => series.length
  | _ => 0

@[simp] def rejections : Event → Nat
  | .offered _ false => 1
  | _ => 0

/-- Series in a rejected write. -/
@[simp] def rejectedCount : Event → Nat
  | .offered series false => series.length
  | _ => 0

/-- Series handed to destinations, once for each that was registered when the call began. -/
@[simp] def writtenCount : Event → Nat
  | .completed c => c.batch.length * c.destinations.size
  | _ => 0

@[simp] def unwrittenCount (net : Network) : Event → Nat
  | .completed c => c.batch.length * c.failures net
  | _ => 0

end Event

/-- The sum of a count over a log. -/
def tally (count : Event → Nat) : List Event → Nat
  | [] => 0
  | e :: l => count e + tally count l

@[simp] theorem tally_nil (count : Event → Nat) : tally count [] = 0 := rfl

@[simp] theorem tally_cons (count : Event → Nat) (e : Event) (l : List Event) :
    tally count (e :: l) = count e + tally count l := rfl

@[simp] theorem tally_append (count : Event → Nat) (l m : List Event) :
    tally count (l ++ m) = tally count l + tally count m := by
  induction l with
  | nil => rw [List.nil_append, tally_nil, Nat.zero_add]
  | cons e r ih => rw [List.cons_append, tally_cons, tally_cons, ih, Nat.add_assoc]

theorem tally_le {f g : Event → Nat} {l : List Event} (h : ∀ e ∈ l, f e ≤ g e) :
    tally f l ≤ tally g l := by
  induction l with
  | nil => exact Nat.le_refl 0
  | cons e r ih =>
    have he := h e List.mem_cons_self
    have hr := ih fun d hd => h d (List.mem_cons_of_mem _ hd)
    simp only [tally_cons]
    omega

theorem tally_eq_zero {f : Event → Nat} {l : List Event} (h : ∀ e ∈ l, f e = 0) :
    tally f l = 0 := by
  induction l with
  | nil => rfl
  | cons e r ih =>
    rw [tally_cons, h e List.mem_cons_self, ih fun d hd => h d (List.mem_cons_of_mem _ hd)]

/-- What is offered is admitted or rejected. -/
theorem tally_offeredCount (log : List Event) :
    tally Event.offeredCount log = (admittedSeries log).length + tally Event.rejectedCount log := by
  induction log with
  | nil => rfl
  | cons e r ih =>
    simp only [tally_cons, admittedSeries_cons, List.length_append, ih]
    cases e with
    | offered series admitted =>
      cases admitted with
      | true => simp only [Event.offeredCount, Event.admitted, Event.rejectedCount]; omega
      | false =>
        simp only [Event.offeredCount, Event.admitted, Event.rejectedCount, List.length_nil]
        omega
    | _ => simp

/-! ## Counting a completed call -/

theorem failures_le (c : Sending) (net : Network) : c.failures net ≤ c.destinations.size :=
  List.countP_le_length

theorem failed_length (c : Sending) (net : Network) (hb : c.batch ≠ []) :
    (c.fanOut net).report.failed.length = c.failures net := by
  unfold Sending.fanOut FanOut.begin FanOut.report Sending.failures
  rw [if_neg hb]
  simp only [List.length_filterMap_eq_countP, List.countP_map]
  congr 1
  funext e
  simp only [Function.comp, Delivery.error?]
  cases (e.2.write net c.number c.batch).2 <;> rfl

theorem counters_record (w : Writer) (c : Sending) (net : Network) :
    (w.record (c.fanOut net)).counters =
      { w.counters with
        writeTotal := w.counters.writeTotal + c.batch.length * c.destinations.size
        writeFailTotal := w.counters.writeFailTotal + c.batch.length * c.failures net } := by
  by_cases hb : c.batch = []
  · simp [record, Sending.fanOut, FanOut.begin, hb]
  · have hf := failed_length c net hb
    have hs : (c.fanOut net).series = c.batch := by
      unfold Sending.fanOut FanOut.begin
      rw [if_neg hb]
    have hd : (c.fanOut net).deliveries.length = c.destinations.size := by
      unfold Sending.fanOut FanOut.begin Table.size
      rw [if_neg hb]
      exact List.length_map ..
    unfold record
    rw [hf, hs, hd]

/-! ## The invariant -/

structure Accounts (net : Network) (s : Session) : Prop where
  totalCount : s.writer.counters.totalCount = tally Event.offeredCount s.log
  failCount : s.writer.counters.failCount = tally Event.rejections s.log
  failTotal : s.writer.counters.failTotal = tally Event.rejectedCount s.log
  writeTotal : s.writer.counters.writeTotal = tally Event.writtenCount s.log
  writeFailTotal : s.writer.counters.writeFailTotal = tally (Event.unwrittenCount net) s.log
  capacity : s.writer.queue.capacity = s.writer.settings.queueCapacity
  size : s.writer.queue.size ≤ s.writer.queue.capacity
  queueSize : s.writer.counters.queueSize ≤ s.writer.queue.capacity
  /-- A write is rejected only for the series it has. -/
  rejected : ∀ e ∈ s.log, e.rejections ≤ e.rejectedCount

section Steps

variable {net : Network} {s t : Session}

theorem accounts_start (settings : WriterSettings) : Accounts net (.start settings) where
  totalCount := rfl
  failCount := rfl
  failTotal := rfl
  writeTotal := rfl
  writeFailTotal := rfl
  capacity := rfl
  size := Nat.zero_le _
  queueSize := Nat.zero_le _
  rejected := by simp [Session.start]

/-- A step that neither offers nor completes anything. -/
theorem Accounts.frame (h : Accounts net s) (new : List Event) (hlog : t.log = s.log ++ new)
    (hcount : ∀ e ∈ new, e.offeredCount = 0 ∧ e.rejections = 0 ∧ e.rejectedCount = 0 ∧
      e.writtenCount = 0 ∧ e.unwrittenCount net = 0)
    (hc : t.writer.counters = s.writer.counters)
    (hcap : t.writer.queue.capacity = s.writer.queue.capacity)
    (hsize : t.writer.queue.size ≤ s.writer.queue.size)
    (hset : t.writer.settings = s.writer.settings) : Accounts net t := by
  have hzero {count : Event → Nat} (hz : ∀ e ∈ new, count e = 0) :
      tally count t.log = tally count s.log := by
    rw [hlog, tally_append, tally_eq_zero hz, Nat.add_zero]
  constructor
  · rw [hc, hzero fun e he => (hcount e he).1, h.totalCount]
  · rw [hc, hzero fun e he => (hcount e he).2.1, h.failCount]
  · rw [hc, hzero fun e he => (hcount e he).2.2.1, h.failTotal]
  · rw [hc, hzero fun e he => (hcount e he).2.2.2.1, h.writeTotal]
  · rw [hc, hzero fun e he => (hcount e he).2.2.2.2, h.writeFailTotal]
  · rw [hcap, hset, h.capacity]
  · rw [hcap]
    exact Nat.le_trans hsize h.size
  · rw [hc, hcap]
    exact h.queueSize
  · intro e he
    rw [hlog] at he
    rcases List.mem_append.1 he with he | he
    · exact h.rejected e he
    · have := hcount e he
      omega

theorem Accounts.write (h : Accounts net s) (now : Timestamp) (samples : List Sample) :
    Accounts net (s.write now samples) := by
  unfold Session.write
  rcases s.writer.writeSamples_cases now samples with
    ⟨rfl, hw⟩ | ⟨hfit, q, hq, hcap, hw⟩ | ⟨hover, hw⟩
  · rw [hw]
    exact h.frame _ rfl (by simp [Series.ofSamples]) rfl rfl (Nat.le_refl _) rfl
  · have hsize : q.size ≤ q.capacity := by
      rw [hcap, ← BoundedQueue.length_toList, hq, List.length_append, BoundedQueue.length_toList]
      exact hfit
    rw [hw]
    constructor <;> simp only [Counters.offered, ↓reduceIte, tally_append, tally_cons, tally_nil]
    · simp [h.totalCount]
    · simp [h.failCount]
    · simp [h.failTotal]
    · simp [h.writeTotal]
    · simp [h.writeFailTotal]
    · rw [hcap, h.capacity]
    · exact hsize
    · exact hsize
    · intro e he
      rcases List.mem_append.1 he with he | he
      · exact h.rejected e he
      · rw [List.mem_singleton.1 he]
        exact Nat.zero_le _
  · have hne : 0 < (Series.ofSamples now samples).length := by
      have := h.size
      omega
    rw [hw]
    constructor <;>
      simp only [Counters.offered, Bool.false_eq_true, ↓reduceIte, tally_append, tally_cons, tally_nil]
    · simp [h.totalCount]
    · simp [h.failCount]
    · simp [h.failTotal]
    · simp [h.writeTotal]
    · simp [h.writeFailTotal]
    · exact h.capacity
    · exact h.size
    · exact h.size
    · intro e he
      rcases List.mem_append.1 he with he | he
      · exact h.rejected e he
      · rw [List.mem_singleton.1 he]
        exact hne

/-- A call is completed, and the drain loop may go to another point. -/
theorem Accounts.complete (h : Accounts net s) (c : Sending)
    (hw : t.writer = { s.writer.record (c.fanOut net) with drain := t.writer.drain })
    (hlog : t.log = s.log ++ [.completed c]) : Accounts net t := by
  have hc : t.writer.counters = (s.writer.record (c.fanOut net)).counters := by rw [hw]
  have hq : t.writer.queue = s.writer.queue := by rw [hw]; rfl
  have hset : t.writer.settings = s.writer.settings := by rw [hw]; rfl
  rw [counters_record] at hc
  constructor
  · simp [hc, hlog, h.totalCount]
  · simp [hc, hlog, h.failCount]
  · simp [hc, hlog, h.failTotal]
  · simp [hc, hlog, h.writeTotal]
  · simp [hc, hlog, h.writeFailTotal]
  · rw [hq, hset, h.capacity]
  · rw [hq]
    exact h.size
  · rw [hc, hq]
    exact h.queueSize
  · intro e he
    rw [hlog] at he
    rcases List.mem_append.1 he with he | he
    · exact h.rejected e he
    · rw [List.mem_singleton.1 he]
      exact Nat.le_refl 0

theorem Accounts.moved (h : Accounts net s) (ho : Orderly net s) {w : Writer}
    (hm : Move net s.writer w) : Accounts net (s.moved w) := by
  cases hm with
  | turn hd hp hf hs =>
    rw [Session.moved_turn hd hp]
    exact h.frame [] (by simp) (by simp) rfl rfl (Nat.le_refl _) rfl
  | stop hd hf he =>
    rw [Session.moved_turn hd rfl]
    exact h.frame [] (by simp) (by simp) rfl rfl (Nat.le_refl _) rfl
  | take hd hq hp hf =>
    have hsize := BoundedQueue.size_popMany s.writer.queue s.writer.batchLimit
    rw [Session.moved_take hd hp rfl]
    exact h.frame _ rfl (by simp) rfl (BoundedQueue.capacity_popMany ..) (hsize ▸ Nat.sub_le ..) rfl
  | complete hd hp hf hs =>
    obtain ⟨c, hl, rfl⟩ := ho.loop_eq_some hd
    rw [Session.moved_complete hd hl hp hs]
    exact h.complete c rfl rfl
  | cut hd hf =>
    obtain ⟨c, hl, -⟩ := ho.loop_eq_some hd
    rw [Session.moved_cut hd hl rfl]
    exact h.frame _ rfl (by simp) rfl rfl (Nat.le_refl _) rfl

theorem accounts_step (h : Accounts net s) (ho : Orderly net s) (hs : Step net s t) :
    Accounts net t := by
  cases hs with
  | write now samples => exact h.write now samples
  | register name options =>
    obtain ⟨d, hd⟩ := s.writer.register_writer name options net.readUrl
    rw [hd]
    exact { h with }
  | deregister name =>
    obtain ⟨d, hd⟩ := s.writer.deregister_writer name
    rw [hd]
    exact { h with }
  | close => exact h.frame [.closed] rfl (by simp) rfl rfl (Nat.le_refl _) rfl
  | send series => exact h.frame [.begun _] rfl (by simp) rfl rfl (Nat.le_refl _) rfl
  | @sent l r c hd => exact h.complete c rfl rfl
  | drain hm => exact h.moved ho (move_of_step? hm)

theorem accounts_of_steps (h : Accounts net s) (ho : Orderly net s) (hs : Steps net s t) :
    Accounts net t := by
  induction hs with
  | refl => exact h
  | tail hst hstep ih => exact accounts_step ih (orderly_of_steps ho hst) hstep

theorem log_step (h : Step net s t) : s.log <+: t.log := by
  cases h with
  | register | deregister => exact List.prefix_rfl
  | write | close | send | sent => exact List.prefix_append ..
  | drain hm =>
    unfold Session.moved
    split
    · exact List.prefix_append ..
    · exact List.prefix_append ..
    · exact List.prefix_rfl

theorem Steps.log (h : Steps net s t) : s.log <+: t.log := by
  induction h with
  | refl => exact List.prefix_rfl
  | tail _ hs ih => exact ih.trans (log_step hs)

/-- What is summed over a log grows with it. -/
theorem tally_mono (count : Event → Nat) {l m : List Event} (h : l <+: m) :
    tally count l ≤ tally count m := by
  obtain ⟨r, rfl⟩ := h
  rw [tally_append]
  exact Nat.le_add_right ..

theorem Accounts.grown (h : Accounts net s) (h' : Accounts net t) (hlog : s.log <+: t.log) :
    s.writer.counters.Grown t.writer.counters where
  totalCount := by rw [h.totalCount, h'.totalCount]; exact tally_mono _ hlog
  failCount := by rw [h.failCount, h'.failCount]; exact tally_mono _ hlog
  failTotal := by rw [h.failTotal, h'.failTotal]; exact tally_mono _ hlog
  writeTotal := by rw [h.writeTotal, h'.writeTotal]; exact tally_mono _ hlog
  writeFailTotal := by rw [h.writeFailTotal, h'.writeFailTotal]; exact tally_mono _ hlog

/-- What was offered and not rejected is queued or was popped. -/
theorem Accounts.conserved (h : Accounts net s) (ho : Orderly net s) :
    s.writer.counters.totalCount =
      s.writer.counters.failTotal + s.writer.queue.size + (poppedBatches s.log).flatten.length := by
  have hlen := congrArg List.length ho.order
  rw [List.length_append, BoundedQueue.length_toList] at hlen
  rw [h.totalCount, h.failTotal, tally_offeredCount]
  omega

end Steps

/-- In every state of every run the counters are sums over what has happened, what was admitted is
queued or popped, and no counter but the length of the queue ever decreases. -/
theorem counters_account_for_log {net : Network} {settings : WriterSettings} {s : Session}
    (h : Reachable net settings s) :
    s.writer.counters.totalCount = tally Event.offeredCount s.log ∧
    s.writer.counters.failCount = tally Event.rejections s.log ∧
    s.writer.counters.failTotal = tally Event.rejectedCount s.log ∧
    s.writer.counters.totalCount - s.writer.counters.failTotal =
      s.writer.queue.size + (poppedBatches s.log).flatten.length ∧
    s.writer.counters.writeTotal = tally Event.writtenCount s.log ∧
    s.writer.counters.writeFailTotal = tally (Event.unwrittenCount net) s.log ∧
    s.writer.counters.failCount ≤ s.writer.counters.failTotal ∧
    s.writer.counters.failTotal ≤ s.writer.counters.totalCount ∧
    s.writer.counters.writeFailTotal ≤ s.writer.counters.writeTotal ∧
    s.writer.counters.queueSize ≤ settings.queueCapacity ∧
    ∀ t, Steps net s t → s.writer.counters.Grown t.writer.counters := by
  have ho : Orderly net s := orderly_of_steps (orderly_start settings) h
  have ha : Accounts net s := accounts_of_steps (accounts_start settings) (orderly_start settings) h
  have hconserved := ha.conserved ho
  refine ⟨ha.totalCount, ha.failCount, ha.failTotal, by omega, ha.writeTotal, ha.writeFailTotal,
    ?_, by omega, ?_, ?_, fun t ht => ?_⟩
  · rw [ha.failCount, ha.failTotal]
    exact tally_le ha.rejected
  · rw [ha.writeFailTotal, ha.writeTotal]
    refine tally_le fun e _ => ?_
    cases e with
    | completed c => exact Nat.mul_le_mul_left _ (failures_le c net)
    | _ => exact Nat.le_refl 0
  · have hcap := ha.queueSize
    rw [ha.capacity, h.settings] at hcap
    exact hcap
  · exact ha.grown (accounts_of_steps ha ho ht) ht.log

/-- A destination that cannot be reached, a write that does not fit, and a direct call. -/
def refusals : Session :=
  (Session.start { queueCapacity := 3, batchSize := 2 }).run .unreachable
    [.register "prom" { url := "http://127.0.0.1/" }, .write ⟨0, 0⟩ [probe "a", probe "b"],
      .drain 0, .write ⟨0, 0⟩ [probe "a", probe "b", probe "c", probe "d"], .send [⟨[], []⟩],
      .drain 0, .sent]

theorem reachable_refusals :
    Reachable .unreachable { queueCapacity := 3, batchSize := 2 } refusals := steps_run ..

theorem counters_refusals :
    refusals.writer.counters = ⟨6, 1, 4, 0, 3, 3⟩ ∧
      refusals.writer.counters.totalCount - refusals.writer.counters.failTotal =
        refusals.writer.queue.size + (poppedBatches refusals.log).flatten.length ∧
      refusals.writer.counters.queueSize ≤ 3 := by
  obtain ⟨-, -, -, hconserved, -, -, -, -, -, hsize, -⟩ :=
    counters_account_for_log reachable_refusals
  exact ⟨by decide +kernel, hconserved, hsize⟩

end Writer

end MetricRelay
