import MetricRelay.Proofs.Text.Cutting
import MetricRelay.Proofs.Writer.Statuses

/-!
# Bodies of error responses

A destination that answers with the status of an error has its response kept in the failure that is
reported, but not all of it: `KeepsStart` says how much. Failures with a status come about in no other
way, whether a payload is posted or a batch goes to all destinations (`status_failures_keep_start`).
-/

namespace MetricRelay.Destination

open Text (LongestStart)

/-- `body` is what an error keeps of the body of a response: whole characters from its start, in at most
512 bytes, or as much of the note that it could not be read. -/
structure KeepsStart (content : Content) (body : String) : Prop where
  longest : LongestStart (errorBody content) errorBodyLimit body
  length_le : (Text.encode body).length ≤ 512
  wellFormed : Text.decode? (Text.encode body) = some body
  complete : ∀ text, content = .complete text → ∃ rest, text = body ++ rest
  broken : ∀ detail, content = .broken detail →
    ∃ rest, "<unreadable body: " ++ detail ++ ">" = body ++ rest

theorem keepsStart_iff {content : Content} {body : String} :
    KeepsStart content body ↔ body = Text.truncate (errorBody content) errorBodyLimit := by
  have htruncate := Text.longestStart_truncate (errorBody content) errorBodyLimit
  constructor
  · intro h
    exact h.longest.unique htruncate
  · rintro rfl
    refine ⟨htruncate, ?_, Text.decode?_encode _, ?_, ?_⟩
    · rw [Text.length_encode]
      exact htruncate.size_le
    · rintro b rfl
      exact htruncate.start
    · rintro detail rfl
      exact htruncate.start

/-! ## Failures with a status -/

theorem accept_eq_status_iff {reply : Reply} {status : Nat} {body : String} :
    accept reply = .error (.status status body) ↔
      ∃ content, reply = .answered status content ∧ isErrorStatus status = true ∧
        KeepsStart content body := by
  simp only [keepsStart_iff]
  cases reply with
  | failed detail => simp [accept]
  | answered code content =>
    rw [accept]
    by_cases herror : 400 ≤ code ∧ code < 600
    · rw [if_pos herror]
      constructor
      · intro h
        cases h
        exact ⟨content, rfl, decide_eq_true herror, rfl⟩
      · rintro ⟨_, heq, -, rfl⟩
        cases heq
        rfl
    · rw [if_neg herror]
      constructor
      · intro h
        cases h
      · rintro ⟨_, heq, hstatus, -⟩
        cases heq
        exact absurd (of_decide_eq_true hstatus) herror

/-- The request is answered in time with the status of an error, and `body` is kept of the response. -/
def Refuses (d : Destination) (net : Network) (number : Nat) (r : Request) (status : Nat)
    (body : String) : Prop :=
  isErrorStatus status = true ∧ ∃ elapsed content,
    net.exchange number d.name r = .after elapsed (.answered status content) ∧
    elapsed.nanos ≤ d.options.effectiveTimeout.nanos ∧ KeepsStart content body

variable {d : Destination} {net : Network} {number status : Nat} {body : String}

theorem conclude_eq_status_iff {r : Request} :
    (d.conclude net number (.ok r)).2 = .error (.status status body) ↔
      d.Refuses net number r status body := by
  rw [conclude, Refuses]
  simp only [accept_eq_status_iff, within_eq_answered_iff]
  constructor
  · rintro ⟨content, ⟨elapsed, hreply, hin⟩, hstatus, hkeeps⟩
    exact ⟨hstatus, elapsed, content, hreply, hin, hkeeps⟩
  · rintro ⟨hstatus, elapsed, content, hreply, hin, hkeeps⟩
    exact ⟨content, ⟨elapsed, hreply, hin⟩, hstatus, hkeeps⟩

theorem post_eq_status_iff {payload : Bytes} :
    (d.post net number payload).2 = .error (.status status body) ↔
      isHttp (d.request payload).url = true ∧
        d.Refuses net number (d.request payload) status body := by
  by_cases hhttp : isHttp (d.request payload).url = true
  · have hpost : d.post net number payload = d.conclude net number (.ok (d.request payload)) :=
      if_pos hhttp
    rw [hpost, conclude_eq_status_iff, and_iff_right hhttp]
  · have hpost : d.post net number payload = (⟨0⟩, accept (.failed "URL scheme is not allowed")) :=
      if_neg hhttp
    rw [hpost]
    simp [accept, hhttp]

/-- A batch that cannot be sent has no response. -/
theorem outgoing_ne_status {series : List Series} :
    d.outgoing net series ≠ .error (.status status body) := by
  unfold outgoing Wire.Snappy.compress
  split
  · next e h =>
    split at h
    · cases h
    · cases h
      simp
  · split <;> simp

theorem mem_failed_status_iff {destinations : Table Destination} {series : List Series}
    {name : String} :
    .delivery name (.status status body) ∈
        (FanOut.begin net number destinations series).report.failed ↔
      series ≠ [] ∧ ∃ d r, destinations.get? name = some d ∧ d.outgoing net series = .ok r ∧
        d.Refuses net number r status body := by
  by_cases hs : series = []
  · simp [hs, FanOut.begin, FanOut.report]
  · rw [(FanOut.covers_begin hs).failed, and_iff_right hs]
    refine exists_congr fun d => ?_
    rw [exists_and_left]
    refine and_congr_right fun _ => ?_
    cases hout : d.outgoing net series with
    | error e =>
      have hne : e ≠ .status status body := by
        rintro rfl
        exact outgoing_ne_status hout
      simp [conclude, hne]
    | ok r => simp [conclude_eq_status_iff]

/-- A text is cut, without a fault, to its longest start within the limit. So a failure with a status
keeps no more than the limit of the response that it comes from. -/
theorem status_failures_keep_start :
    (∀ s max, Text.truncate? s max = some (Text.truncate s max) ∧
      LongestStart s max (Text.truncate s max) ∧
      (Text.truncate s max = s ↔ s.utf8ByteSize ≤ max)) ∧
    (∀ (d : Destination) net number payload status body,
      (d.post net number payload).2 = .error (.status status body) ↔
        isHttp (d.request payload).url = true ∧
          d.Refuses net number (d.request payload) status body) ∧
    ∀ net number destinations series name status body,
      .delivery name (.status status body) ∈
          (FanOut.begin net number destinations series).report.failed ↔
        series ≠ [] ∧ ∃ d r, destinations.get? name = some d ∧ d.outgoing net series = .ok r ∧
          d.Refuses net number r status body := by
  refine ⟨fun s max => ?_, fun _ _ _ _ _ _ => post_eq_status_iff,
    fun _ _ _ _ _ _ _ => mem_failed_status_iff⟩
  have hlongest := Text.longestStart_truncate s max
  refine ⟨Text.truncate?_eq_some s max, hlongest, fun hself => ?_, fun hfits => ?_⟩
  · exact hself ▸ hlongest.size_le
  · exact hlongest.unique (Text.longestStart_self hfits)

end MetricRelay.Destination
