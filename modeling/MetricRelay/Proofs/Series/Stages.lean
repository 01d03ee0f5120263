import MetricRelay.Proofs.Series.Layers

/-!
# Normalization in stages

What has been normalized can be normalized again, with other extra labels. `Normalizes.followed_by`
says that a sample then is what it would have become at once, with the extra labels of both stages
in one layer, those of the first stage ahead. A label that follows the address may come to stand
between two fillings; it does no harm, since it goes by the address there too.
-/

namespace MetricRelay

theorem SampleList.toList_injective {l m : SampleList} (h : l.toList = m.toList) : l = m := by
  cases l
  cases m
  exact congrArg SampleList.mk (List.reverse_injective h)

/-- A layer has nothing to add a second time. -/
@[simp] theorem Table.fill_self {α : Type} (t : Table α) : t.fill t = t := by
  refine ext_get? fun k => ?_
  rw [get?_fill, Option.or_self]

namespace Normalizer

variable {n : Normalizer} {now later : Timestamp} {first second : Labels} {s t out : Sample}

/-- A key that the first stage has not set by address has the value of the first layer that sets it,
of all layers of both stages. -/
theorem layered_fill {own : Labels} {k : String}
    (h : t.labels.get? k = n.layered first own k) :
    n.layered second t.labels k = n.layered (first.fill second) own k := by
  rw [layered, h, layered, layered, Table.get?_fill]
  cases own.get? k <;> cases n.globals.get? k <;> cases first.get? k <;> rfl

theorem Normalizes.followed_by (h : n.Normalizes now first s t)
    (h' : n.Normalizes later second t out) : n.Normalizes now (first.fill second) s out where
  source := h'.source.trans h.source
  metric := h'.metric.trans h.metric
  value := h'.value.trans h.value
  timestamp := by rw [h'.timestamp, h.timestamp, Option.getD_some]
  labels k hk := (h'.labels k hk).trans (layered_fill (h.labels k hk))
  instanceOf := by
    have haddress : n.layered second t.labels addressLabel =
        n.layered (first.fill second) s.labels addressLabel :=
      layered_fill (h.labels addressLabel (by decide))
    rw [h'.instanceOf, haddress]
    cases hown : n.layered first s.labels addressLabel with
    | some a =>
      -- The address of the first stage is that of both, and hides what else is under `instance`.
      have hfirst : n.layered (first.fill second) s.labels addressLabel = some a := by
        rw [← haddress, layered, h.labels addressLabel (by decide), hown]
        rfl
      rw [hfirst]
      rfl
    | none =>
      have hkept : t.labels.get? instanceLabel = n.layered first s.labels instanceLabel := by
        rw [h.instanceOf, hown, Option.none_or]
      rw [layered_fill hkept]

theorem stamp_stamp (n : Normalizer) (now later : Timestamp) (first second : Labels) (s : Sample) :
    n.stamp later second (n.stamp now first s) = n.stamp now (first.fill second) s :=
  normalizes_iff.1
    ((normalizes_stamp n now first s).followed_by (normalizes_stamp n later second _))

theorem process_process (n : Normalizer) (now later : Timestamp) (first second : Labels)
    (pending : SampleList) :
    (n.process later second (n.process now first pending).1).1 =
      (n.process now (first.fill second) pending).1 := by
  apply SampleList.toList_injective
  rw [toList_process, toList_process, toList_process, List.map_map]
  exact List.map_congr_left fun s _ => stamp_stamp n now later first second s

/-! ## Any number of stages -/

/-- A later stage: when it takes place, and its extra labels. -/
structure Stage where
  time : Timestamp
  extra : Labels

/-- Hands on what one stage gives to the next. -/
def processIn (n : Normalizer) (pending : SampleList) (stages : List Stage) : SampleList :=
  stages.foldl (fun l stage => (n.process stage.time stage.extra l).1) pending

/-- The extra labels of all stages in one layer; the first stage to set a key wins. -/
def union (extra : Labels) (stages : List Stage) : Labels :=
  stages.foldl (fun u stage => u.fill stage.extra) extra

theorem processIn_process (n : Normalizer) (now : Timestamp) (extra : Labels)
    (pending : SampleList) (stages : List Stage) :
    n.processIn (n.process now extra pending).1 stages =
      (n.process now (union extra stages) pending).1 := by
  induction stages generalizing extra with
  | nil => rfl
  | cons stage more ih =>
    have hjoined := process_process n now stage.time extra stage.extra pending
    rw [processIn, List.foldl_cons, hjoined]
    exact ih (extra.fill stage.extra)

/-- Normalizing in two stages, or in any number of them, gives what normalizing once gives with the
extra labels of all stages in one layer, where earlier stages win; samples without a time have that of
the first stage. To normalize again with the same labels changes nothing. -/
theorem process_in_stages (n : Normalizer) (now : Timestamp) (first : Labels)
    (pending : SampleList) :
    (∀ later second, (n.process later second (n.process now first pending).1).1 =
      (n.process now (first.fill second) pending).1) ∧
    (∀ second k, (first.fill second).get? k = (first.get? k).or (second.get? k)) ∧
    (∀ later, (n.process later first (n.process now first pending).1).1 =
      (n.process now first pending).1) ∧
    ∀ stages, n.processIn (n.process now first pending).1 stages =
      (n.process now (union first stages) pending).1 := by
  refine ⟨fun later second => process_process n now later first second pending,
    fun second => Table.get?_fill first second, fun later => ?_, processIn_process n now first pending⟩
  rw [process_process, Table.fill_self]

end Normalizer

end MetricRelay
