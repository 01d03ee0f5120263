import MetricRelay.Proofs.Writer.Isolation

/-!
# Statuses of responses

`Destination.status?` is the status of the response that ends an attempt to deliver a batch, if one
comes in time. An attempt without a response has failed, and so has one with the status of a client or
server error. All other statuses count as delivered, whether or not they are those of a success or a
redirection (`delivered_unless_error_status`).
-/

namespace MetricRelay

def Reply.status? : Reply → Option Nat
  | .answered status _ => some status
  | .failed _ => none

theorem Reply.status?_eq_some_iff {r : Reply} {status : Nat} :
    r.status? = some status ↔ ∃ content, r = .answered status content := by
  cases r <;> simp [status?]

/-- The statuses of client and server errors. -/
def isErrorStatus (status : Nat) : Bool := 400 ≤ status ∧ status < 600

namespace Destination

variable {d : Destination} {net : Network} {number : Nat} {series : List Series}

theorem accept_eq_ok_iff {r : Reply} :
    accept r = .ok () ↔ r.status?.any (fun status => !isErrorStatus status) = true := by
  cases r with
  | failed detail => simp [accept, Reply.status?]
  | answered status content =>
    have herror : isErrorStatus status = decide (400 ≤ status ∧ status < 600) := rfl
    rw [accept, Reply.status?, Option.any_some, herror]
    split
    · next h => simp [h]
    · next h => rw [decide_eq_false h, Bool.not_false, eq_self, eq_self]

/-- The status of the response to a batch. There is none if the batch is empty or cannot be sent, or if
no response comes within the timeout. -/
def status? (d : Destination) (net : Network) (number : Nat) (series : List Series) : Option Nat :=
  if series = [] then none
  else
    match d.outgoing net series with
    | .error _ => none
    | .ok r => ((net.exchange number d.name r).within d.options.effectiveTimeout timedOut).2.status?

/-- A response comes in time, or there is none. -/
theorem within_eq_answered_iff {x : Eventually Reply} {limit : Duration} {status : Nat}
    {content : Content} :
    (x.within limit timedOut).2 = .answered status content ↔
      ∃ elapsed, x = .after elapsed (.answered status content) ∧ elapsed.nanos ≤ limit.nanos := by
  cases x with
  | never => simp [Eventually.within, timedOut]
  | after elapsed reply =>
    rw [Eventually.within]
    by_cases hin : elapsed.nanos ≤ limit.nanos
    · rw [if_pos hin]
      constructor
      · rintro rfl
        exact ⟨elapsed, rfl, hin⟩
      · rintro ⟨_, heq, -⟩
        cases heq
        rfl
    · rw [if_neg hin]
      constructor
      · intro h
        cases h
      · rintro ⟨_, heq, hle⟩
        cases heq
        exact absurd hle hin

theorem status?_within {limit : Duration} {status : Nat} (x : Eventually Reply) :
    (x.within limit timedOut).2.status? = some status ↔
      ∃ elapsed content, x = .after elapsed (.answered status content) ∧
        elapsed.nanos ≤ limit.nanos := by
  simp only [Reply.status?_eq_some_iff, within_eq_answered_iff]
  exact exists_comm

/-- Whether a destination answers a batch with a status that is not one of an error. -/
def takes (net : Network) (number : Nat) (series : List Series) (d : Destination) : Bool :=
  (d.status? net number series).any fun status => !isErrorStatus status

/-- The response is the one that the network gives to the request, in time. -/
theorem takes_iff : d.takes net number series = true ↔
    series ≠ [] ∧ ∃ r, d.outgoing net series = .ok r ∧ ∃ status elapsed content,
      net.exchange number d.name r = .after elapsed (.answered status content) ∧
      elapsed.nanos ≤ d.options.effectiveTimeout.nanos ∧ isErrorStatus status = false := by
  unfold takes status?
  by_cases hs : series = []
  · simp [hs]
  · rw [if_neg hs]
    cases d.outgoing net series with
    | error e => simp
    | ok r =>
      simp only [Option.any_eq_true, status?_within, Bool.not_eq_true', Except.ok.injEq,
        exists_eq_left', hs, ne_eq, not_false_eq_true, true_and]
      refine exists_congr fun status => ⟨?_, ?_⟩
      · rintro ⟨⟨elapsed, content, hreply, hin⟩, hstatus⟩
        exact ⟨elapsed, content, hreply, hin, hstatus⟩
      · rintro ⟨elapsed, content, hreply, hin, hstatus⟩
        exact ⟨⟨elapsed, content, hreply, hin⟩, hstatus⟩

/-- An attempt ends by the status of its response alone. -/
theorem write_eq_ok_iff (hs : series ≠ []) :
    (d.write net number series).2 = .ok () ↔ d.takes net number series = true := by
  rw [write_eq_conclude hs]
  unfold conclude takes status?
  rw [if_neg hs]
  cases d.outgoing net series with
  | error e => simp
  | ok r => exact accept_eq_ok_iff

end Destination

namespace FanOut

variable {net : Network} {number : Nat} {destinations : Table Destination} {series : List Series}

theorem delivered_begin (net : Network) (number : Nat) (destinations : Table Destination)
    (series : List Series) :
    (begin net number destinations series).report.delivered =
      (destinations.entries.filter fun e => e.2.takes net number series).map Prod.fst := by
  unfold begin report
  by_cases hs : series = []
  · simp [hs, Destination.takes, Destination.status?]
  · rw [if_neg hs, List.filter_map, List.map_map]
    refine congrArg _ (List.filter_congr fun e _ => ?_)
    rw [Bool.eq_iff_iff, ← Destination.write_eq_ok_iff hs]
    cases h : (e.2.write net number series).2 <;> simp [h]

end FanOut

namespace Writer

/-- The destinations that do not get the batch are those that do not take it. -/
theorem failures_eq (c : Sending) (net : Network) (hb : c.batch ≠ []) :
    c.failures net = c.destinations.entries.countP fun e => !e.2.takes net c.number c.batch := by
  refine List.countP_congr fun e _ => ?_
  rw [Bool.not_eq_true', ← Bool.not_eq_true, ← Destination.write_eq_ok_iff hb]
  cases (e.2.write net c.number c.batch).2 <;> simp

/-- A batch is listed as delivered to just those destinations that answer it in time with a status that
is not one of a client or server error, and is counted as failed once for each of the others. -/
theorem delivered_unless_error_status (w : Writer) (net : Network) (series : List Series) :
    let takes := fun e : String × Destination => e.2.takes net w.fanOuts series
    (w.writeSeries net series).1.delivered = (w.destinations.entries.filter takes).map Prod.fst ∧
    (w.writeSeries net series).2.counters = { w.counters with
      writeTotal := w.counters.writeTotal + series.length * w.destinations.size
      writeFailTotal := w.counters.writeFailTotal +
        series.length * w.destinations.entries.countP fun e => !takes e } ∧
    ∀ d : Destination, d.takes net w.fanOuts series = true ↔
      series ≠ [] ∧ ∃ r, d.outgoing net series = .ok r ∧ ∃ status elapsed content,
        net.exchange w.fanOuts d.name r = .after elapsed (.answered status content) ∧
        elapsed.nanos ≤ d.options.effectiveTimeout.nanos ∧ isErrorStatus status = false := by
  intro takes
  refine ⟨FanOut.delivered_begin .., ?_, fun d => Destination.takes_iff⟩
  let c : Sending := ⟨true, w.fanOuts, w.destinations, series⟩
  have hcounted : (w.writeSeries net series).2.counters = _ :=
    counters_record (w.beginFanOut net series).2 c net
  rw [hcounted]
  by_cases hs : series = []
  · simp [c, hs, beginFanOut]
  · rw [failures_eq c net hs]
    rfl

/-- One destination. -/
def onePeer : Writer := (({ settings := {} } : Writer).register "a" { url := "http://127.0.0.1/" }).2

/-- Every request is answered with that status. -/
def answering (status : Nat) : Network where
  connect _ _ := .never
  exchange _ _ _ := .after ⟨0⟩ (.answered status (.complete ""))

/-- A response that is neither a success nor a redirection may count as delivered. -/
theorem delivered_beyond_redirections :
    ¬∀ (w : Writer) (net : Network) (series : List Series),
      (w.writeSeries net series).1.delivered = (w.destinations.entries.filter fun e =>
        (e.2.status? net w.fanOuts series).any fun status => 200 ≤ status ∧ status ≤ 399).map
          Prod.fst := by
  intro hall
  have hnone := hall onePeer (answering 600) [⟨[], []⟩]
  have hone : (onePeer.writeSeries (answering 600) [⟨[], []⟩]).1.delivered = ["a"] := by
    decide +kernel
  have hother : ((onePeer.destinations.entries.filter fun e =>
      (e.2.status? (answering 600) onePeer.fanOuts [⟨[], []⟩]).any fun status =>
        200 ≤ status ∧ status ≤ 399).map Prod.fst) = [] := by
    decide +kernel
  rw [hone, hother] at hnone
  cases hnone

end Writer

end MetricRelay
