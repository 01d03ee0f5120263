import Mathlib.Data.List.Forall2
import MetricRelay.Proofs.Series.Precedence

/-!
# Normalized samples

`Normalizes` says what a sample is once it has been normalized: each key has the value of the first
layer that sets it, but for `instance`, which goes by `address` where some layer has one. It leaves one
sample only (`Normalizes.eq`), and `process_exact` says that the pending samples become these, in
their order.
-/

namespace MetricRelay.Normalizer

variable {n : Normalizer} {now : Timestamp} {extra : Labels}

/-- The own value of a key, else the global one, else the extra one. -/
def layered (n : Normalizer) (extra own : Labels) (k : String) : Option String :=
  ((own.get? k).or (n.globals.get? k)).or (extra.get? k)

structure Normalizes (n : Normalizer) (now : Timestamp) (extra : Labels) (s out : Sample) :
    Prop where
  source : out.source = s.source
  metric : out.metric = s.metric
  value : out.value = s.value
  /-- A time that is set stays; all others become the same one. -/
  timestamp : out.timestamp = some (s.timestamp.getD now)
  labels : ∀ k, k ≠ instanceLabel → out.labels.get? k = n.layered extra s.labels k
  /-- The address wins over what any layer has under `instance`. -/
  instanceOf : out.labels.get? instanceLabel =
    (n.layered extra s.labels addressLabel).or (n.layered extra s.labels instanceLabel)

theorem get?_followAddress_instance (labels : Labels) :
    (followAddress labels).get? instanceLabel =
      (labels.get? addressLabel).or (labels.get? instanceLabel) := by
  unfold followAddress
  cases labels.get? addressLabel with
  | none => rfl
  | some a => exact Table.get?_insert_self labels instanceLabel a

theorem normalizes_stamp (n : Normalizer) (now : Timestamp) (extra : Labels) (s : Sample) :
    n.Normalizes now extra s (n.stamp now extra s) where
  source := rfl
  metric := rfl
  value := rfl
  timestamp := rfl
  labels _ hk := get?_label n extra s.labels hk
  instanceOf := by
    rw [stamp, label, get?_followAddress_instance]
    simp only [Table.get?_fill, layered]

/-- What a normalized sample has to be leaves no choice. -/
theorem Normalizes.eq {s out out' : Sample} (h : n.Normalizes now extra s out)
    (h' : n.Normalizes now extra s out') : out = out' := by
  have hlabels : out.labels = out'.labels := by
    refine Table.ext_get? fun k => ?_
    by_cases hk : k = instanceLabel
    · rw [hk, h.instanceOf, h'.instanceOf]
    · rw [h.labels k hk, h'.labels k hk]
  obtain ⟨hsource, hmetric, hvalue, htime, -, -⟩ := h
  obtain ⟨hsource', hmetric', hvalue', htime', -, -⟩ := h'
  cases out
  cases out'
  simp_all

theorem normalizes_iff {s out : Sample} :
    n.Normalizes now extra s out ↔ out = n.stamp now extra s := by
  constructor
  · exact fun h => h.eq (normalizes_stamp n now extra s)
  · rintro rfl
    exact normalizes_stamp n now extra s

theorem forall₂_normalizes_iff {samples outs : List Sample} :
    List.Forall₂ (n.Normalizes now extra) samples outs ↔
      outs = samples.map (n.stamp now extra) := by
  have hrel : n.Normalizes now extra = fun s out => n.stamp now extra s = out := by
    funext s out
    exact propext (normalizes_iff.trans eq_comm)
  rw [hrel, eq_comm, ← List.forall₂_eq_eq_eq]
  exact List.forall₂_map_left_iff.symm

/-- The pending samples are handed on in their order, none lost or added, each normalized with the
same instant, and nothing stays pending. -/
theorem process_exact (n : Normalizer) (now : Timestamp) (extra : Labels) (pending : SampleList) :
    List.Forall₂ (n.Normalizes now extra) pending.toList (n.process now extra pending).1.drain.1 ∧
    (∀ outs, List.Forall₂ (n.Normalizes now extra) pending.toList outs →
      outs = (n.process now extra pending).1.drain.1) ∧
    (n.process now extra pending).2 = .empty := by
  have hdrained : (n.process now extra pending).1.drain.1 =
      pending.toList.map (n.stamp now extra) := toList_process n now extra pending
  rw [hdrained]
  exact ⟨forall₂_normalizes_iff.2 rfl, fun outs => forall₂_normalizes_iff.1,
    process_rest n now extra pending⟩

end MetricRelay.Normalizer
