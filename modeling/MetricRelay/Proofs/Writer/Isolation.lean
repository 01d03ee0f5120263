import MetricRelay.Proofs.Wire.RoundTrip
import MetricRelay.Proofs.Writer.Accounting

/-!
# Isolation of destinations

`outgoing` is what is sent to a destination for a batch, and carries the whole of it
(`carries_outgoing`). An attempt to deliver ends as the reply to it says and asks nothing else of the
network (`write_eq_conclude`). So a fan-out `Covers` its destinations, and neither the others in the
table nor their replies matter to one of them (`fan_out_isolated`).
-/

namespace MetricRelay

/-- Unpacked and decoded, the body is that batch as it is received. -/
def Request.Carries (r : Request) (series : List Series) : Prop :=
  (Wire.Snappy.decompress? r.body).bind Wire.decode? = some (series.map Series.received)

namespace Destination

variable {d : Destination} {net net' : Network} {number : Nat} {series : List Series}

/-- The request that carries a batch, or why it cannot be sent. -/
def outgoing (d : Destination) (net : Network) (series : List Series) :
    Except DeliveryError Request :=
  match Wire.Snappy.compress net.pack (Wire.encode series) with
  | .error e => .error e
  | .ok payload =>
    if isHttp (d.request payload).url then .ok (d.request payload)
    else .error (.transport "URL scheme is not allowed")

/-- The end of an attempt: without a request at once, else by the reply to it. -/
def conclude (d : Destination) (net : Network) (number : Nat) :
    Except DeliveryError Request → Duration × Except DeliveryError Unit
  | .error e => (⟨0⟩, .error e)
  | .ok r =>
    let (elapsed, reply) :=
      (net.exchange number d.name r).within d.options.effectiveTimeout timedOut
    (elapsed, accept reply)

theorem write_eq_conclude (hs : series ≠ []) :
    d.write net number series = d.conclude net number (d.outgoing net series) := by
  unfold write outgoing
  rw [if_neg hs]
  cases Wire.Snappy.compress net.pack (Wire.encode series) with
  | error e => rfl
  | ok payload =>
    simp only [post]
    split <;> rfl

/-- The request is the one that the destination makes of the packed batch. -/
theorem eq_request_of_outgoing {r : Request} (h : d.outgoing net series = .ok r) :
    r = d.request r.body ∧ Wire.Snappy.compress net.pack (Wire.encode series) = .ok r.body := by
  unfold outgoing at h
  cases hc : Wire.Snappy.compress net.pack (Wire.encode series) with
  | error e =>
    rw [hc] at h
    cases h
  | ok payload =>
    simp only [hc] at h
    split at h
    · cases h
      exact ⟨rfl, rfl⟩
    · cases h

theorem carries_outgoing {r : Request} (h : d.outgoing net series = .ok r)
    (hpack : Wire.Snappy.Undone net.pack) : r.Carries series := by
  obtain ⟨-, hbody⟩ := eq_request_of_outgoing h
  unfold Request.Carries
  rw [hpack.decompress?_of_compress hbody, Option.bind_some, Wire.decode?_encode_of_compress hbody]

/-- Only how the batch is packed matters. -/
theorem outgoing_congr (h : net'.pack = net.pack) : d.outgoing net' series = d.outgoing net series := by
  unfold outgoing
  rw [h]

/-- Only the reply to the request matters. -/
theorem conclude_congr {x : Except DeliveryError Request}
    (h : ∀ r, x = .ok r → net'.exchange number d.name r = net.exchange number d.name r) :
    d.conclude net' number x = d.conclude net number x := by
  cases x with
  | error e => rfl
  | ok r =>
    unfold conclude
    simp only [h r rfl]

end Destination

/-- An attempt to deliver a batch. Its request is what the destination makes of the packed batch, and
carries all of it; and it ends as the reply to it says. -/
structure Delivery.Attempts (x : Delivery) (d : Destination) (net : Network) (number : Nat)
    (series : List Series) : Prop where
  ends : (x.elapsed, x.result) = d.conclude net number (d.outgoing net series)
  request : ∀ r, d.outgoing net series = .ok r → r = d.request r.body
  body : ∀ r, d.outgoing net series = .ok r →
    Wire.Snappy.compress net.pack (Wire.encode series) = .ok r.body
  carries : Wire.Snappy.Undone net.pack → ∀ r, d.outgoing net series = .ok r → r.Carries series

theorem Destination.attempts {d : Destination} {net : Network} {number : Nat} {series : List Series}
    {x : Delivery} (h : (x.elapsed, x.result) = d.conclude net number (d.outgoing net series)) :
    x.Attempts d net number series where
  ends := h
  request _ hr := (eq_request_of_outgoing hr).1
  body _ hr := (eq_request_of_outgoing hr).2
  carries hpack _ hr := carries_outgoing hr hpack

namespace FanOut

variable {net : Network} {number : Nat} {destinations : Table Destination} {series : List Series}

/-! ## What a report lists -/

theorem mem_delivered {f : FanOut} {name : String} :
    name ∈ f.report.delivered ↔ ∃ x ∈ f.deliveries, x.destination = name ∧ x.result = .ok () := by
  simp only [report, List.mem_map, List.mem_filter]
  constructor
  · rintro ⟨x, ⟨hx, hok⟩, rfl⟩
    refine ⟨x, hx, rfl, ?_⟩
    cases hr : x.result with
    | ok u => rfl
    | error e => simp [hr] at hok
  · rintro ⟨x, hx, rfl, hr⟩
    exact ⟨x, ⟨hx, by simp [hr]⟩, rfl⟩

theorem mem_failed {f : FanOut} {name : String} {e : DeliveryError} :
    .delivery name e ∈ f.report.failed ↔
      ∃ x ∈ f.deliveries, x.destination = name ∧ x.result = .error e := by
  simp only [report, List.mem_filterMap, Delivery.error?]
  constructor
  · rintro ⟨x, hx, hr⟩
    split at hr
    · cases hr
    · next h =>
      cases hr
      exact ⟨x, hx, rfl, h⟩
  · rintro ⟨x, hx, rfl, hr⟩
    exact ⟨x, hx, by rw [hr]⟩

/-- Every failure names its destination. -/
theorem failedDestinations_report (f : FanOut) :
    f.report.failedDestinations =
      (f.deliveries.filter fun x => !(x.result matches .ok _)).map Delivery.destination := by
  unfold DeliveryReport.failedDestinations report
  induction f.deliveries with
  | nil => rfl
  | cons x r ih =>
    rw [List.filterMap_cons, Delivery.error?]
    cases hr : x.result with
    | ok u => simpa [hr] using ih
    | error e => simpa [hr] using ih

theorem length_failedDestinations (f : FanOut) :
    f.report.failedDestinations.length = f.report.failed.length := by
  have hfailed : f.report.failed.length =
      f.deliveries.countP fun x => !(x.result matches .ok _) := by
    unfold report
    rw [List.length_filterMap_eq_countP]
    refine List.countP_congr fun x _ => ?_
    rw [Delivery.error?]
    cases x.result <;> simp
  rw [failedDestinations_report, List.length_map, ← List.countP_eq_length_filter, hfailed]

/-- Each destination is listed once, as delivered or as failed. -/
theorem listed_perm (f : FanOut) :
    (f.report.delivered ++ f.report.failedDestinations).Perm
      (f.deliveries.map Delivery.destination) := by
  rw [failedDestinations_report]
  unfold report
  rw [← List.map_append]
  exact (List.filter_append_perm _ _).map _

/-! ## A batch to every destination -/

theorem map_destination_begin (hs : series ≠ []) :
    (begin net number destinations series).deliveries.map Delivery.destination =
      destinations.keys := by
  unfold begin Table.keys
  rw [if_neg hs, List.map_map]
  rfl

theorem mem_begin (hs : series ≠ []) {x : Delivery} :
    x ∈ (begin net number destinations series).deliveries ↔
      ∃ d, destinations.get? x.destination = some d ∧ x.Attempts d net number series := by
  unfold begin
  rw [if_neg hs]
  simp only [List.mem_map]
  constructor
  · rintro ⟨e, he, rfl⟩
    exact ⟨e.2, Table.get?_of_mem he, Destination.attempts (Destination.write_eq_conclude hs)⟩
  · rintro ⟨d, hd, hx⟩
    refine ⟨(x.destination, d), Table.mem_of_value? hd, ?_⟩
    simp only [Destination.write_eq_conclude hs, ← hx.ends]

/-- One attempt for each destination, which carries the whole batch and ends as the reply to it
says; each destination is listed once. -/
structure Covers (net : Network) (number : Nat) (destinations : Table Destination)
    (series : List Series) (f : FanOut) : Prop where
  attempts : f.deliveries.map Delivery.destination = destinations.keys
  once : destinations.keys.Nodup
  ends : ∀ x ∈ f.deliveries, ∃ d, destinations.get? x.destination = some d ∧
    x.Attempts d net number series
  listed : (f.report.delivered ++ f.report.failedDestinations).Perm destinations.keys
  delivered : ∀ name, name ∈ f.report.delivered ↔
    ∃ d, destinations.get? name = some d ∧ (d.conclude net number (d.outgoing net series)).2 = .ok ()
  failed : ∀ name e, .delivery name e ∈ f.report.failed ↔
    ∃ d, destinations.get? name = some d ∧ (d.conclude net number (d.outgoing net series)).2 = .error e

/-- Which delivery of a destination there is. -/
theorem exists_delivery (hs : series ≠ []) {name : String} {result : Except DeliveryError Unit} :
    (∃ x ∈ (begin net number destinations series).deliveries,
      x.destination = name ∧ x.result = result) ↔
    ∃ d, destinations.get? name = some d ∧
      (d.conclude net number (d.outgoing net series)).2 = result := by
  constructor
  · rintro ⟨x, hx, rfl, rfl⟩
    obtain ⟨d, hd, hattempt⟩ := (mem_begin hs).1 hx
    exact ⟨d, hd, (congrArg Prod.snd hattempt.ends).symm⟩
  · rintro ⟨d, hd, rfl⟩
    exact ⟨⟨name, _, _⟩, (mem_begin hs).2 ⟨d, hd, Destination.attempts rfl⟩, rfl, rfl⟩

theorem covers_begin (hs : series ≠ []) :
    (begin net number destinations series).Covers net number destinations series where
  attempts := map_destination_begin hs
  once := destinations.nodup_keys
  ends _ := (mem_begin hs).1
  listed := map_destination_begin hs ▸ listed_perm _
  delivered _ := mem_delivered.trans (exists_delivery hs)
  failed _ _ := mem_failed.trans (exists_delivery hs)

/-- Without a batch or a destination nothing is sent. -/
theorem deliveries_begin_eq_nil (h : series = [] ∨ destinations.entries = []) :
    (begin net number destinations series).deliveries = [] := by
  unfold begin
  split
  · rfl
  · next hs => rw [h.resolve_left hs, List.map_nil]

theorem report_of_nil {f : FanOut} (h : f.deliveries = []) : f.report = {} := by
  unfold report
  rw [h]
  rfl

end FanOut

namespace Writer

/-! ## Other destinations -/

/-- The host has registered and removed destinations of other names. -/
inductive Others (name : String) (w : Writer) : Writer → Prop where
  | refl : Others name w w
  | register {v : Writer} (h : Others name w v) {other : String} (hne : other ≠ name)
    (options : DestinationOptions) (readUrl : Url.Reader) :
    Others name w (v.register other options readUrl).2
  | deregister {v : Writer} (h : Others name w v) {other : String} (hne : other ≠ name) :
    Others name w (v.deregister other).2

variable {name : String} {w w' : Writer}

theorem Others.get? (h : Others name w w') :
    w'.destinations.get? name = w.destinations.get? name := by
  induction h with
  | refl => rfl
  | register _ hne options readUrl ih =>
    rw [← ih]
    unfold Writer.register
    split
    · rw [Table.get?_insert, if_neg (Ne.symm hne)]
    · rfl
  | deregister _ hne ih =>
    rw [← ih]
    unfold Writer.deregister
    split
    · rw [Table.get?_erase, if_neg (Ne.symm hne)]
    · rfl

theorem Others.fanOuts (h : Others name w w') : w'.fanOuts = w.fanOuts := by
  induction h with
  | refl => rfl
  | @register v _ other _ options readUrl ih =>
    obtain ⟨t, ht⟩ := register_writer v other options readUrl
    rw [ht, ← ih]
  | @deregister v _ other _ ih =>
    obtain ⟨t, ht⟩ := deregister_writer v other
    rw [ht, ← ih]

/-- What becomes of a destination depends on it and the replies to it only. -/
theorem Others.conclude_iff (h : Others name w w') {net net' : Network} {series : List Series}
    (hpack : net'.pack = net.pack) (hnet : ∀ d, w.destinations.get? name = some d →
      ∀ r, net'.exchange w.fanOuts d.name r = net.exchange w.fanOuts d.name r)
    (result : Except DeliveryError Unit) :
    (∃ d, w'.destinations.get? name = some d ∧
      (d.conclude net' w'.fanOuts (d.outgoing net' series)).2 = result) ↔
    ∃ d, w.destinations.get? name = some d ∧
      (d.conclude net w.fanOuts (d.outgoing net series)).2 = result := by
  rw [h.get?, h.fanOuts]
  refine exists_congr fun d => and_congr_right fun hd => ?_
  rw [Destination.outgoing_congr hpack, Destination.conclude_congr fun r _ => hnet d hd r]

/-! ## Fan-outs of a writer -/

theorem counters_record_begin (v : Writer) (net : Network) (c : Sending) :
    (v.record (c.fanOut net)).counters = { v.counters with
      writeTotal := v.counters.writeTotal + c.batch.length * c.destinations.size
      writeFailTotal := v.counters.writeFailTotal +
        c.batch.length * (c.fanOut net).report.failedDestinations.length } := by
  rw [counters_record, FanOut.length_failedDestinations]
  by_cases hb : c.batch = []
  · simp [hb]
  · rw [failed_length c net hb]

theorem record_of_nil {f : FanOut} (h : f.deliveries = []) (v : Writer) : v.record f = v := by
  unfold record
  rw [h, FanOut.report_of_nil h]
  rfl

/-- A destination is listed as it would be without the others. -/
theorem Others.listed (h : Others name w w') {net net' : Network} {series : List Series}
    (hpack : net'.pack = net.pack) (hnet : ∀ d, w.destinations.get? name = some d →
      ∀ r, net'.exchange w.fanOuts d.name r = net.exchange w.fanOuts d.name r) :
    (name ∈ (w'.beginFanOut net' series).1.report.delivered ↔
      name ∈ (w.beginFanOut net series).1.report.delivered) ∧
    ∀ e, .delivery name e ∈ (w'.beginFanOut net' series).1.report.failed ↔
      .delivery name e ∈ (w.beginFanOut net series).1.report.failed := by
  by_cases hs : series = []
  · subst hs
    exact ⟨.rfl, fun _ => .rfl⟩
  · have hcovers : (w.beginFanOut net series).1.Covers net w.fanOuts w.destinations series :=
      FanOut.covers_begin hs
    have hcovers' : (w'.beginFanOut net' series).1.Covers net' w'.fanOuts w'.destinations series :=
      FanOut.covers_begin hs
    exact ⟨(hcovers'.delivered name).trans
        ((h.conclude_iff hpack hnet _).trans (hcovers.delivered name).symm),
      fun e => (hcovers'.failed name e).trans
        ((h.conclude_iff hpack hnet _).trans (hcovers.failed name e).symm)⟩

/-- A fan-out attempts to deliver the batch to every destination once and is counted by what it
attempted and what failed. What is sent to one destination and how that ends is not changed by other
destinations, registered or removed before, or by the replies to them. -/
theorem fan_out_isolated (w : Writer) (net : Network) (series : List Series) :
    let f := (w.beginFanOut net series).1
    (series ≠ [] → f.Covers net w.fanOuts w.destinations series) ∧
    (∀ v : Writer, (v.record f).counters = { v.counters with
      writeTotal := v.counters.writeTotal + series.length * w.destinations.size
      writeFailTotal :=
        v.counters.writeFailTotal + series.length * f.report.failedDestinations.length }) ∧
    (∀ name w' net', Others name w w' → net'.pack = net.pack →
      (∀ d, w.destinations.get? name = some d →
        ∀ r, net'.exchange w.fanOuts d.name r = net.exchange w.fanOuts d.name r) →
      let f' := (w'.beginFanOut net' series).1
      (w'.destinations.get? name).map (Destination.outgoing · net' series) =
        (w.destinations.get? name).map (Destination.outgoing · net series) ∧
      (name ∈ f'.report.delivered ↔ name ∈ f.report.delivered) ∧
      ∀ e, .delivery name e ∈ f'.report.failed ↔ .delivery name e ∈ f.report.failed) ∧
    (series = [] ∨ w.destinations.entries = [] →
      f.deliveries = [] ∧ f.report = {} ∧ ∀ v : Writer, v.record f = v) ∧
    w.writeSeries net series = (f.report, (w.beginFanOut net series).2.record f) := by
  intro f
  refine ⟨fun hs => FanOut.covers_begin hs, fun v => ?_, ?_, fun hempty => ?_, rfl⟩
  · exact counters_record_begin v net ⟨true, w.fanOuts, w.destinations, series⟩
  · intro name w' net' hothers hpack hnet f'
    refine ⟨?_, hothers.listed hpack hnet⟩
    rw [hothers.get?]
    exact congrArg (Option.map · _) (funext fun d => Destination.outgoing_congr hpack)
  · have hnone : f.deliveries = [] := FanOut.deliveries_begin_eq_nil hempty
    exact ⟨hnone, FanOut.report_of_nil hnone, record_of_nil hnone⟩

/-- `a` takes every request; to the others happens what the reply says. -/
def takenByA (others : Eventually Reply) : Network where
  connect _ _ := .never
  exchange _ name _ := if name = "a" then .after ⟨0⟩ (.answered 204 (.complete "")) else others

def refusedByOthers : Network := takenByA (.after ⟨0⟩ (.answered 503 (.complete "")))

def twoPeers : Writer :=
  ((({ settings := {} } : Writer).register "a" { url := "http://127.0.0.1/" }).2.register "b"
    { url := "http://127.0.0.2/" }).2

/-- That `b` refuses, or is replaced by a silent `c`, is nothing to `a`. -/
theorem delivered_beside_refusal :
    (twoPeers.writeSeries refusedByOthers [⟨[], []⟩]).1.delivered = ["a"] ∧
    (twoPeers.writeSeries refusedByOthers [⟨[], []⟩]).2.counters = ⟨0, 0, 0, 0, 2, 1⟩ ∧
    "a" ∈ ((((twoPeers.deregister "b").2.register "c" { url := "http://127.0.0.3/" }).2).beginFanOut
      (takenByA .never) [⟨[], []⟩]).1.report.delivered := by
  obtain ⟨-, -, htwo, -, -⟩ := fan_out_isolated twoPeers refusedByOthers [⟨[], []⟩]
  have hothers : Others "a" twoPeers
      ((twoPeers.deregister "b").2.register "c" { url := "http://127.0.0.3/" }).2 :=
    .register (.deregister .refl (by decide)) (by decide) _ _
  have hname : (twoPeers.destinations.get? "a").map Destination.name = some "a" := by
    decide +kernel
  obtain ⟨-, hdelivered, -⟩ := htwo "a" _ (takenByA .never) hothers rfl fun d hd r => by
    rw [hd] at hname
    simp [refusedByOthers, takenByA, Option.some.inj hname]
  exact ⟨by decide +kernel, by decide +kernel, hdelivered.2 (by decide +kernel)⟩

end Writer

end MetricRelay
