import MetricRelay.Collector.Script
import MetricRelay.Proofs.Collector.Registry

/-!
# What models have pending

A `Ledger` is a registry together with the events in the lists of its models, as collectors and
callers see them: a collector is registered, it pushes samples, its list is emptied. From these
events alone `since` tells what a model should have pending. A call concerns one model only, and
what it makes of that model is `Request.serve`; so the lists are as the events tell, whatever was
called before (`Ledger.balanced_run`).
-/

namespace MetricRelay

variable {σ : Type}

theorem Outcome.result_of_ne_done {outcome : Outcome} (h : outcome ≠ .done) :
    ∃ e, outcome.result = .error e := by
  cases outcome with
  | done => exact absurd rfl h
  | failed e => exact ⟨e, rfl⟩
  | broken text => exact ⟨_, rfl⟩

namespace Registry

/-! ## Calls -/

/-- What can be asked of a registered model. -/
inductive Request where
  | initConfig (config : ConfigMap)
  | gather (connect : Connect)
  | initConfigWithGather (connect : Connect) (config : ConfigMap)
  | list
  | drain
  | evict

/-- What a call gives if it succeeds. -/
inductive Reply where
  | done
  | samples (samples : List Sample)
  | count (count : Nat)
  deriving DecidableEq

inductive Call (σ : Type) where
  | register (collector : σ)
  | ask (model : String) (request : Request)

variable [Collector σ]

/-- The model that a call is about. -/
def Call.model : Call σ → String
  | .register collector => Collector.name collector
  | .ask model _ => model

variable {r : Registry σ} {m : Model σ} {model other : String} {connect : Connect}
  {config : ConfigMap}

def ask (r : Registry σ) (model : String) : Request → Except Error Reply × Registry σ
  | .initConfig config =>
    let (answer, r) := r.initConfig model config
    (answer.map fun _ => .done, r)
  | .gather connect =>
    let (answer, r) := r.gather connect model
    (answer.map fun _ => .done, r)
  | .initConfigWithGather connect config =>
    let (answer, r) := r.initConfigWithGather connect model config
    (answer.map fun _ => .done, r)
  | .list => ((r.pending model).map fun l => .samples l.toList, r)
  | .drain =>
    let (answer, r) := r.drain model
    (answer.map .samples, r)
  | .evict =>
    let (answer, r) := r.evict model
    (answer.map .count, r)

def perform (r : Registry σ) : Call σ → Except Error Reply × Registry σ
  | .register collector => (.ok .done, r.register collector)
  | .ask model request => r.ask model request

/-! ## Requests -/

/-- What a registered model answers to a request, and what becomes of it. -/
def Request.serve (model : String) (m : Model σ) : Request → Except Error Reply × Model σ
  | .initConfig config =>
    let (accepted, collector) := Collector.init config m.collector
    ((accepted.mapError (.configInit model)).map fun _ => .done, { m with collector })
  | .gather connect => observe connect m
  | .initConfigWithGather connect config =>
    match Collector.init config m.collector with
    | (.error e, collector) => (.error (.configInit model e), { m with collector })
    | (.ok _, collector) => observe connect { m with collector }
  | .list => (.ok (.samples m.pending.toList), m)
  | .drain => (.ok (.samples m.pending.toList), { m with pending := .empty })
  | .evict => (.ok (.count m.pending.size), { m with pending := .empty })
where
  observe (connect : Connect) (m : Model σ) : Except Error Reply × Model σ :=
    let observation := Collector.gather connect m.collector
    ((gatherResult model observation.1.outcome).map fun _ => .done, m.observed observation)

theorem ask_of_none (h : r.models.get? model = none) (request : Request) :
    r.ask model request = (.error (.notRegistered .model model), r) := by
  cases request with
  | initConfig config => rw [ask, initConfig_of_none h]; rfl
  | gather connect => rw [ask, gather_of_none h]; rfl
  | initConfigWithGather connect config =>
    rw [ask, initConfigWithGather, initConfig_of_none h]
    rfl
  | list => rw [ask, pending_of_none h]; rfl
  | drain => rw [ask, drain, withModel_of_none h]; rfl
  | evict => rw [ask, evict, withModel_of_none h]; rfl

/-- A request of a registered model changes that model and nothing else. -/
theorem ask_of_some (h : r.models.get? model = some m) (request : Request) :
    r.ask model request =
      ((request.serve model m).1, r.replace model (request.serve model m).2) := by
  cases request with
  | initConfig config => rw [ask, initConfig_of_some h]; rfl
  | gather connect => rw [ask, gather_of_some h]; rfl
  | initConfigWithGather connect config =>
    rw [ask, Request.serve]
    rcases hinit : Collector.init config m.collector with ⟨_ | _, collector⟩
    · rw [initConfigWithGather_of_error h (congrArg Prod.fst hinit), initConfig_of_some h, hinit]
      rfl
    · rw [initConfigWithGather_of_ok h (congrArg Prod.fst hinit), initConfig_of_some h, hinit,
        gather_of_some (get?_replace_self ..), replace_replace]
      rfl
  | list => rw [ask, pending_of_some h, Request.serve, replace_self h]; rfl
  | drain => rw [ask, drain, withModel_of_some h]; rfl
  | evict => rw [ask, evict, withModel_of_some h]; rfl

/-- A call leaves the models that it is not about as they are. -/
theorem get?_perform_of_ne (call : Call σ) (h : other ≠ call.model) :
    (r.perform call).2.models.get? other = r.models.get? other := by
  cases call with
  | register collector =>
    rw [Call.model] at h
    rw [perform, register, Table.get?_insert, if_neg h]
  | ask model request =>
    rw [Call.model] at h
    rw [perform]
    cases hm : r.models.get? model with
    | none => rw [ask_of_none hm]
    | some m => rw [ask_of_some hm, get?_replace, if_neg h]

/-- No request finds a model unregistered. -/
def Usable (r : Registry σ) (model : String) : Prop :=
  ∀ request, (r.ask model request).1 ≠ .error (.notRegistered .model model)

theorem observe_ne (connect : Connect) (model : String) (m : Model σ) :
    (Request.serve.observe model connect m).1 ≠ .error (.notRegistered .model model) := by
  rw [Request.serve.observe, gatherResult]
  cases (Collector.gather connect m.collector).1.outcome.result <;> simp [Except.map]

theorem usable_of_get? (h : r.models.get? model = some m) : r.Usable model := by
  intro request
  rw [ask_of_some h]
  cases request with
  | initConfig config =>
    rw [Request.serve]
    rcases Collector.init config m.collector with ⟨_ | _, _⟩ <;> nofun
  | gather connect => exact observe_ne connect model m
  | initConfigWithGather connect config =>
    rw [Request.serve]
    rcases Collector.init config m.collector with ⟨_ | _, collector⟩
    · simp
    · exact observe_ne connect model { m with collector }
  | list => simp [Request.serve]
  | drain => simp [Request.serve]
  | evict => simp [Request.serve]

/-! ## Changes of lists -/

/-- What can happen to the list of a model. -/
inductive Change where
  | registered
  | pushed (samples : List Sample)
  | emptied
  deriving DecidableEq

/-- What was pushed since a list was last new or emptied, oldest first; the latest change comes
first. -/
def since : List Change → List Sample
  | .pushed samples :: earlier => since earlier ++ samples
  | _ => []

/-- What a request makes happen to the list of a registered model. -/
def Request.change? (m : Model σ) : Request → Option Change
  | .initConfig _ | .list => none
  | .gather connect => some (.pushed (Collector.gather connect m.collector).1.samples)
  | .initConfigWithGather connect config =>
    match Collector.init config m.collector with
    | (.error _, _) => none
    | (.ok _, collector) => some (.pushed (Collector.gather connect collector).1.samples)
  | .drain | .evict => some .emptied

/-- What a call makes happen to the list of the model that it is about. -/
def Call.change? (r : Registry σ) : Call σ → Option Change
  | .register _ => some .registered
  | .ask model request => (r.models.get? model).bind fun m => request.change? m

theorem pending_serve (model : String) (m : Model σ) (request : Request) {changes : List Change}
    (h : m.pending.toList = since changes) :
    (request.serve model m).2.pending.toList =
      since ((request.change? m).toList ++ changes) := by
  have hpush : ∀ samples, (m.pending.pushMany samples).toList = since changes ++ samples :=
    fun samples => by rw [SampleList.toList_pushMany, h]
  cases request with
  | initConfig config => exact h
  | gather connect => exact hpush _
  | initConfigWithGather connect config =>
    rw [Request.serve, Request.change?]
    rcases Collector.init config m.collector with ⟨_ | _, collector⟩
    · exact h
    · exact hpush _
  | list => exact h
  | drain => rfl
  | evict => rfl

/-! ## What callers get -/

/-- How a registered model serves its callers if `pushed` is what was pushed for it since its list
was last new or emptied. -/
structure Serves (r : Registry σ) (model : String) (m : Model σ) (pushed : List Sample) : Prop where
  pending : m.pending.toList = pushed
  list : r.ask model .list = (.ok (.samples pushed), r)
  drain : r.ask model .drain =
    (.ok (.samples pushed), r.replace model { m with pending := .empty })
  evict : r.ask model .evict =
    (.ok (.count pushed.length), r.replace model { m with pending := .empty })
  /-- All that an observation pushes is pending afterwards, and the model is as registered as it
  was. -/
  gather (connect : Connect) :
    let (g, collector) := Collector.gather connect m.collector
    let after := (r.ask model (.gather connect)).2
    after = r.replace model { m with collector, pending := m.pending.pushMany g.samples } ∧
      after.pending model = .ok (m.pending.pushMany g.samples) ∧
      (m.pending.pushMany g.samples).toList = pushed ++ g.samples ∧ after.Usable model
  gathered (connect : Connect) : (Collector.gather connect m.collector).1.outcome = .done →
    (r.ask model (.gather connect)).1 = .ok .done
  /-- An observation that fails or breaks down is reported as one. -/
  failed (connect : Connect) : (Collector.gather connect m.collector).1.outcome ≠ .done →
    ∃ e, (Collector.gather connect m.collector).1.outcome.result = .error e ∧
      (r.ask model (.gather connect)).1 = .error (.gather model e)
  /-- Nothing is observed with a configuration that is not accepted. -/
  refused (connect : Connect) (config : ConfigMap) (e : CollectorError) :
    (Collector.init config m.collector).1 = .error e →
    r.ask model (.initConfigWithGather connect config) = (.error (.configInit model e),
      r.replace model { m with collector := (Collector.init config m.collector).2 })
  accepted (connect : Connect) (config : ConfigMap) :
    (Collector.init config m.collector).1 = .ok () →
    r.ask model (.initConfigWithGather connect config) =
      (r.ask model (.initConfig config)).2.ask model (.gather connect)

theorem serves_of_get? {pushed : List Sample} (h : r.models.get? model = some m)
    (hpushed : m.pending.toList = pushed) : r.Serves model m pushed where
  pending := hpushed
  list := by
    rw [ask_of_some h, Request.serve, hpushed, replace_self h]
  drain := by rw [ask_of_some h, Request.serve, hpushed]
  evict := by rw [ask_of_some h, Request.serve, ← SampleList.length_toList, hpushed]
  gather connect := by
    have hask : (r.ask model (.gather connect)).2 =
        r.replace model (m.observed (Collector.gather connect m.collector)) := by
      rw [ask_of_some h]
      rfl
    refine ⟨hask, ?_, ?_, ?_⟩
    · rw [hask, pending_of_some (get?_replace_self ..)]
      rfl
    · rw [SampleList.toList_pushMany, hpushed]
    · rw [hask]
      exact usable_of_get? (get?_replace_self ..)
  gathered connect hdone := by
    rw [ask, gather_of_some h, gatherResult, hdone]
    rfl
  failed connect hne := by
    obtain ⟨e, he⟩ := Outcome.result_of_ne_done hne
    refine ⟨e, he, ?_⟩
    rw [ask, gather_of_some h, gatherResult, he]
    rfl
  refused connect config e he := by
    rw [ask, initConfigWithGather_of_error h he, initConfig_of_some h, he]
    rfl
  accepted connect config hok := by
    show ((r.initConfigWithGather connect model config).1.map fun _ => Reply.done,
      (r.initConfigWithGather connect model config).2) = _
    rw [initConfigWithGather_of_ok h hok]
    rfl

end Registry

/-! ## Ledgers -/

/-- A registry and the changes of the lists of its models, the latest first. -/
structure Ledger (σ : Type) where
  registry : Registry σ := {}
  log : List (String × Registry.Change) := []

namespace Ledger

open Registry

variable [Collector σ] {l : Ledger σ}

/-- What has happened to the list of a model, the latest first. -/
def changes (l : Ledger σ) (model : String) : List Change :=
  (l.log.filter fun e => e.1 = model).map Prod.snd

/-- What has been pushed for a model since its list was last new or emptied. -/
def pushed (l : Ledger σ) (model : String) : List Sample := since (l.changes model)

def perform (l : Ledger σ) (call : Call σ) : Ledger σ where
  registry := (l.registry.perform call).2
  log := ((call.change? l.registry).toList.map fun change => (call.model, change)) ++ l.log

/-- The ledger of a new registry after some calls. -/
def run (calls : List (Call σ)) : Ledger σ := calls.foldl perform {}

/-- What is pending is what was pushed. -/
def Balanced (l : Ledger σ) : Prop :=
  ∀ model m, l.registry.models.get? model = some m → m.pending.toList = l.pushed model

theorem changes_perform (l : Ledger σ) (call : Call σ) (model : String) :
    (l.perform call).changes model =
      if model = call.model then (call.change? l.registry).toList ++ l.changes model
      else l.changes model := by
  unfold changes perform
  rw [List.filter_append, List.map_append]
  cases call.change? l.registry with
  | none => simp
  | some change => by_cases h : model = call.model <;> simp [h, Ne.symm]

theorem balanced_register (l : Ledger σ) (collector : σ) :
    ∀ m, (l.perform (.register collector)).registry.models.get? (Collector.name collector) = some m →
      m.pending.toList = (l.perform (.register collector)).pushed (Collector.name collector) := by
  intro m hm
  have hnew : m = { registration := l.registry.registrations, collector } :=
    Option.some.inj (hm.symm.trans (Table.get?_insert_self ..))
  rw [hnew, pushed, changes_perform]
  simp [Call.model, Call.change?, since]

theorem balanced_ask (h : l.Balanced) (model : String) (request : Registry.Request) :
    ∀ m, (l.perform (.ask model request)).registry.models.get? model = some m →
      m.pending.toList = (l.perform (.ask model request)).pushed model := by
  intro m' hm'
  rw [pushed, changes_perform, Call.model, if_pos rfl, Call.change?]
  change (l.registry.ask model request).2.models.get? model = some m' at hm'
  cases hm : l.registry.models.get? model with
  | none =>
    rw [ask_of_none hm, hm] at hm'
    cases hm'
  | some m =>
    rw [ask_of_some hm, get?_replace_self] at hm'
    cases hm'
    exact pending_serve model m request (h model m hm)

/-- Any call keeps all lists as the changes tell. -/
theorem balanced_perform (h : l.Balanced) (call : Call σ) : (l.perform call).Balanced := by
  intro model m hm
  by_cases hmodel : model = call.model
  · subst hmodel
    cases call with
    | register collector => exact balanced_register l collector m hm
    | ask model request => exact balanced_ask h model request m hm
  · rw [pushed, changes_perform, if_neg hmodel]
    exact h model m ((get?_perform_of_ne call hmodel).symm.trans hm)

theorem balanced_run (calls : List (Call σ)) : (run calls).Balanced := by
  have hfold : ∀ (calls : List (Call σ)) (l : Ledger σ), l.Balanced →
      (calls.foldl perform l).Balanced := by
    intro calls
    induction calls with
    | nil => exact fun _ h => h
    | cons call calls ih => exact fun l h => ih _ (balanced_perform h call)
  exact hfold calls {} fun _ _ h => nomatch h

/-- After any calls, what each model has pending is what was pushed since its list was last new or
emptied, and that is what callers get. An unknown model changes nothing, and no call touches a model
that it is not about. -/
theorem registry_keeps_ledger (calls : List (Call σ)) :
    let l := run calls
    let r := l.registry
    (∀ model m, r.models.get? model = some m → r.Serves model m (l.pushed model)) ∧
    (∀ model request, r.models.get? model = none →
      r.perform (.ask model request) = (.error (.notRegistered .model model), r)) ∧
    ∀ (call : Call σ) (other : String), other ≠ call.model →
      (r.perform call).2.models.get? other = r.models.get? other :=
  ⟨fun model m h => serves_of_get? h (balanced_run calls model m h),
    fun _ request h => ask_of_none h request, fun call _ => get?_perform_of_ne call⟩

/-- A collector that pushes a sample and fails, then pushes another and breaks down. -/
def faltering : ScriptedCollector where
  script.name := "m"
  script.rounds := [
    [.push none "a" (.int 1) .empty, .stop (.failed (.other "cut off"))],
    [.push none "b" (.int 2) .empty, .stop (.broken none)]]

/-- Its first samples are drained, the next two are not: it goes on with its last round. -/
def falteringCalls : List (Call ScriptedCollector) :=
  [.register faltering, .ask "m" (.initConfigWithGather (fun _ => .never) ⟨.empty⟩), .ask "m" .drain,
    .ask "m" (.gather fun _ => .never), .ask "x" .evict, .ask "m" (.gather fun _ => .never)]

theorem faltering_keeps_samples :
    (∃ m, (run falteringCalls).registry.models.get? "m" = some m ∧ m.collector.gathered = 3 ∧
      m.pending.toList.map Sample.metric = ["b", "b"]) ∧
    ((run falteringCalls).registry.perform (.ask "x" .drain)).1 =
      .error (.notRegistered .model "x") := by
  obtain ⟨hserves, hunknown, -⟩ := registry_keeps_ledger falteringCalls
  have hsome : ((run falteringCalls).registry.models.get? "m").isSome := by decide +kernel
  obtain ⟨m, hm⟩ := Option.isSome_iff_exists.1 hsome
  have hcount : ((run falteringCalls).registry.models.get? "m").map (·.collector.gathered) =
      some 3 := by decide +kernel
  rw [hm] at hcount
  refine ⟨⟨m, hm, Option.some.inj hcount, ?_⟩, ?_⟩
  · rw [(hserves "m" m hm).pending]
    decide +kernel
  · rw [hunknown "x" .drain (Option.isNone_iff_eq_none.1 (by decide +kernel))]

end Ledger

end MetricRelay
