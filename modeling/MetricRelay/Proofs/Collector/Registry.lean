import MetricRelay.Collector.Registry

/-!
# Operations on one model

What the operations of a registry do if the model is registered, and if it is not. Each puts another
model in the place of the one of that name (`Registry.replace`) and changes nothing else.
-/

namespace MetricRelay

variable {σ : Type}

/-- A model after an observation: what its collector pushed is pending, however that ended. -/
def Model.observed (m : Model σ) (observation : Gathering × σ) : Model σ :=
  { m with collector := observation.2, pending := m.pending.pushMany observation.1.samples }

namespace Registry

variable {r : Registry σ} {m : Model σ} {model other : String}

/-- A model has become another. -/
def replace (r : Registry σ) (model : String) (m : Model σ) : Registry σ :=
  { r with models := r.models.insert model m }

theorem get?_replace (r : Registry σ) (model other : String) (m : Model σ) :
    (r.replace model m).models.get? other = if other = model then some m else r.models.get? other :=
  Table.get?_insert ..

@[simp] theorem get?_replace_self (r : Registry σ) (model : String) (m : Model σ) :
    (r.replace model m).models.get? model = some m :=
  Table.get?_insert_self ..

@[simp] theorem replace_replace (r : Registry σ) (model : String) (m m' : Model σ) :
    (r.replace model m).replace model m' = r.replace model m' := by
  unfold replace
  rw [Table.insert_insert]

theorem replace_self (h : r.models.get? model = some m) : r.replace model m = r := by
  unfold replace
  rw [Table.insert_of_get? h]

theorem withModel_of_none {α : Type} {f : Model σ → α × Model σ} (h : r.models.get? model = none) :
    r.withModel model f = (.error (.notRegistered .model model), r) := by
  unfold withModel
  rw [h]

theorem withModel_of_some {α : Type} {f : Model σ → α × Model σ}
    (h : r.models.get? model = some m) :
    r.withModel model f = (.ok (f m).1, r.replace model (f m).2) := by
  unfold withModel
  rw [h]
  rfl

theorem get?_withModel_of_ne {α : Type} {f : Model σ → α × Model σ} (hne : other ≠ model) :
    (r.withModel model f).2.models.get? other = r.models.get? other := by
  cases h : r.models.get? model with
  | none => rw [withModel_of_none h]
  | some m => rw [withModel_of_some h, get?_replace, if_neg hne]

theorem pending_of_none (h : r.models.get? model = none) :
    r.pending model = .error (.notRegistered .model model) := by
  unfold pending
  rw [h]

theorem pending_of_some (h : r.models.get? model = some m) : r.pending model = .ok m.pending := by
  unfold pending
  rw [h]

theorem get?_evict (r : Registry σ) (model : String) :
    (r.evict model).2.models.get? model =
      (r.models.get? model).map fun m => { m with pending := .empty } := by
  unfold evict
  cases h : r.models.get? model with
  | none => rw [withModel_of_none h, h, Option.map_none]
  | some m => rw [withModel_of_some h, get?_replace_self, Option.map_some]; rfl

theorem push_replace (r : Registry σ) (model : String) (m : Model σ) (samples : List Sample) :
    (r.replace model m).push model m.registration samples =
      r.replace model { m with pending := m.pending.pushMany samples } := by
  unfold push Table.modify
  rw [get?_replace_self]
  simp only [if_pos]
  exact replace_replace ..

variable [Collector σ] {connect : Connect} {config : ConfigMap}

theorem gather_of_none (h : r.models.get? model = none) :
    r.gather connect model = (.error (.notRegistered .model model), r) := by
  unfold gather beginGather
  rw [withModel_of_none h]

/-- No call comes between the beginning and the end of an awaited observation, so all its samples
reach the list. -/
theorem gather_of_some (h : r.models.get? model = some m) :
    r.gather connect model =
      (gatherResult model (Collector.gather connect m.collector).1.outcome,
        r.replace model (m.observed (Collector.gather connect m.collector))) := by
  unfold gather beginGather
  rw [withModel_of_some h]
  exact congrArg (Prod.mk _) (r.push_replace model { m with collector := _ } _)

theorem initConfig_of_none (h : r.models.get? model = none) :
    r.initConfig model config = (.error (.notRegistered .model model), r) := by
  unfold initConfig
  rw [withModel_of_none h]

theorem initConfig_of_some (h : r.models.get? model = some m) :
    r.initConfig model config =
      ((Collector.init config m.collector).1.mapError (.configInit model),
        r.replace model { m with collector := (Collector.init config m.collector).2 }) := by
  unfold initConfig
  rw [withModel_of_some h]
  cases (Collector.init config m.collector).1 <;> rfl

theorem initConfigWithGather_of_error {e : CollectorError} (h : r.models.get? model = some m)
    (hinit : (Collector.init config m.collector).1 = .error e) :
    r.initConfigWithGather connect model config = r.initConfig model config := by
  unfold initConfigWithGather
  rw [initConfig_of_some h, hinit]
  rfl

theorem initConfigWithGather_of_ok (h : r.models.get? model = some m)
    (hinit : (Collector.init config m.collector).1 = .ok ()) :
    r.initConfigWithGather connect model config =
      (r.initConfig model config).2.gather connect model := by
  unfold initConfigWithGather
  rw [initConfig_of_some h, hinit]
  rfl

end Registry

end MetricRelay
