import Mathlib.Data.List.Induction
import MetricRelay.Config.Decoder
import MetricRelay.Config.Encoder
import MetricRelay.Proofs.Duration.Spans
import MetricRelay.Proofs.Json.Reading

/-!
# Configurations survive their text

`Config.json` is the JSON form of a configuration. However it is written (`Config.WrittenAs`), with
the members of its maps in any order, space anywhere and its texts spelled in any way, it is read back
as that configuration, unless a monitor has no model name: the first such monitor is then reported
(`Config.parse_written`). The records are read one by one, each from the fields of its form.
-/

namespace MetricRelay

open Json

variable {e : ListEnd} {ns : List (String × Json.Value)} {room : Nat}

/-! ## Durations and tables -/

/-- The seconds of the duration fit 64 bits. -/
def Duration.Fits (d : Duration) : Prop := d.nanos / Duration.nanosPerSecond < UInt64.size

instance (d : Duration) : Decidable d.Fits :=
  inferInstanceAs (Decidable (d.nanos / Duration.nanosPerSecond < UInt64.size))

theorem Duration.reads {d : Duration} (h : d.Fits) : durationDecoder.Reads 0 d.json d := by
  intro w hw e _ room _
  cases hw
  simp only [Value.nodeWith, durationDecoder, Literal.ofText, Duration.parse_seconds_nanos h, bind,
    Except.bind]
  rfl

namespace Table

variable {t : Table String}

/-- The entries of some names, entered one by one. -/
def entered (t : Table String) (keys : List String) : Table String :=
  keys.foldl (fun s k => s.insert k ((t.get? k).getD "")) .empty

theorem entered_append (t : Table String) (keys : List String) (k : String) :
    t.entered (keys ++ [k]) = (t.entered keys).insert k ((t.get? k).getD "") := by
  rw [entered, List.foldl_append]
  rfl

theorem get?_entered (t : Table String) (keys : List String) (k : String) :
    (t.entered keys).get? k = if k ∈ keys then some ((t.get? k).getD "") else none := by
  induction keys using List.reverseRecOn with
  | nil => exact (if_neg List.not_mem_nil).symm
  | append_singleton keys j ih =>
    rw [entered_append, get?_insert, ih]
    by_cases hk : k = j
    · subst hk
      simp
    · simp [hk]

/-- All entries give the table, whatever the order of their names. -/
theorem entered_keys {keys : List String} (h : keys.Perm t.keys) : t.entered keys = t := by
  refine ext_get? fun k => ?_
  rw [get?_entered]
  split
  · next hk =>
    obtain ⟨e, he, rfl⟩ := List.mem_map.1 (h.mem_iff.1 hk)
    rw [get?_of_mem he]
    rfl
  · next hk =>
    cases hget : t.get? k with
    | none => rfl
    | some v => exact absurd (h.mem_iff.2 (mem_keys_of_get? hget)) hk

/-- A table is read back, in whatever order its entries stand. -/
theorem reads (t : Table String) : Decoder.table.Reads 1 t.json t := by
  have hjson : t.json = .map (t.entries.map fun entry => (entry.1, .text entry.2)) := rfl
  have hkeys : (t.entries.map fun entry => (entry.1, Json.Value.text entry.2)).map Prod.fst = t.keys := by
    rw [List.map_map]
    rfl
  rw [hjson]
  refine reads_map (by rw [hkeys]; exact t.nodup_keys) fun ns hns e he room _ => ?_
  have hread := fold_record (e := e) (fun s k n => do return s.insert k (← Decoder.text room n))
    t.entered hns fun keys k v w hfield hw _ => by
      obtain ⟨entry, hentry, heq⟩ := List.mem_map.1 hfield
      cases heq
      rw [reads_text entry.2 w hw e he room (Nat.zero_le room), entered_append, get?_of_mem hentry]
      rfl
  have hperm := hns.keys
  rw [hkeys] at hperm
  rwa [entered_keys hperm] at hread

end Table

/-! ## Destinations -/

namespace DestinationOptions

def draft (o : DestinationOptions) (keys : List String) : Draft where
  url := given keys "url" o.url
  basicUser := given keys "basic_auth_user" o.basicUser
  basicPassword := given keys "basic_auth_pass" o.basicPassword
  headers := given keys "headers" o.headers
  timeout := given keys "timeout" o.timeout
  dialTimeout := given keys "dial_timeout" o.dialTimeout
  maxIdlePerHost := given keys "max_idle_conns_per_host" o.maxIdlePerHost

theorem member_draft (o : DestinationOptions) (he : e.reading = .ok ()) (hroom : 1 ≤ room)
    {keys : List String} {k : String} {v w : Json.Value} (hfield : (k, v) ∈ o.members)
    (hw : Reordered v w) (hnew : k ∉ keys) :
    Draft.member room (o.draft keys) k (w.nodeWith e) = .ok (o.draft (keys ++ [k])) := by
  simp only [members, List.mem_cons, Prod.mk.injEq, List.not_mem_nil, or_false] at hfield
  rcases hfield with ⟨rfl, rfl⟩ | ⟨rfl, rfl⟩ | ⟨rfl, rfl⟩ | ⟨rfl, rfl⟩ | ⟨rfl, rfl⟩ | ⟨rfl, rfl⟩ |
    ⟨rfl, rfl⟩
  · have hread := reads_text o.url w hw e he room (Nat.zero_le room)
    simp [Draft.member, draft, once_given hnew hread]
  · have hread := reads_text o.basicUser w hw e he room (Nat.zero_le room)
    simp [Draft.member, draft, once_given hnew hread]
  · have hread := reads_text o.basicPassword w hw e he room (Nat.zero_le room)
    simp [Draft.member, draft, once_given hnew hread]
  · have hread : headersDecoder.Reads 1 _ o.headers := reads_list fun s _ => reads_text s
    have hread := hread w hw e he room hroom
    simp [Draft.member, draft, once_given hnew hread]
  · have hread := reads_word "u64" o.timeout w hw e he room (Nat.zero_le room)
    simp [Draft.member, draft, once_given hnew hread]
  · have hread := reads_word "u64" o.dialTimeout w hw e he room (Nat.zero_le room)
    simp [Draft.member, draft, once_given hnew hread]
  · have hread := reads_word "usize" o.maxIdlePerHost w hw e he room (Nat.zero_le room)
    simp [Draft.member, draft, once_given hnew hread]

/-- The fields are texts, numbers and a list of texts. -/
theorem depth_of_mem_members {o : DestinationOptions} {k : String} {v w : Json.Value}
    (hfield : (k, v) ∈ o.members) (hw : Reordered v w) : w.depth ≤ 1 := by
  have htexts : ∀ (headers : List String) (ws : List Json.Value),
      ReorderedItems (headers.map .text) ws → itemsDepth ws = 0 := by
    intro headers
    induction headers with
    | nil => rintro _ ⟨⟩; rfl
    | cons s headers ih =>
      intro ws hws
      cases hws with
      | cons hw hrest => cases hw; exact Nat.max_eq_zero_iff.2 ⟨rfl, ih _ hrest⟩
  simp only [members, List.mem_cons, Prod.mk.injEq, List.not_mem_nil, or_false] at hfield
  rcases hfield with ⟨-, rfl⟩ | ⟨-, rfl⟩ | ⟨-, rfl⟩ | ⟨-, rfl⟩ | ⟨-, rfl⟩ | ⟨-, rfl⟩ | ⟨-, rfl⟩
  -- Only the headers are a list.
  case inr.inr.inr.inl =>
    cases hw with
    | list hitems => rw [Value.depth, htexts _ _ hitems]
  all_goals
    cases hw
    exact Nat.zero_le 1

/-- The options are read from the members of a destination that are not its name. -/
theorem decoder_of_holds {o : DestinationOptions} (hns : Holds ns o.members) :
    decoder depthLimit (Json.Value.map ns).node = .ok o := by
  have hread := fold_record (e := .built) (Draft.member (depthLimit - 1)) o.draft hns
    fun _ _ _ _ => o.member_draft rfl (by decide)
  rw [← Value.nodeWith_built, Value.nodeWith, decoder, record, descend, if_neg (by decide)]
  rw [show ({} : Draft) = o.draft [] from rfl, hread]
  simp only [draft, given_perm hns.keys]
  rfl

end DestinationOptions

namespace DestinationConfig

/-- After some members: the name if it was among them, and the other ones. -/
def draft (d : DestinationConfig) (ms : List (String × Json.Value)) : Draft where
  name := given (ms.map Prod.fst) "name" d.name
  others := ms.filter fun m => m.1 ≠ "name"

theorem member_draft (d : DestinationConfig) (he : e.reading = .ok ()) (hroom : 1 ≤ room)
    {before : List (String × Json.Value)} {k : String} {v w : Json.Value}
    (hfield : (k, v) ∈ ("name", .text d.name) :: d.options.members) (hw : Reordered v w)
    (hnew : k ∉ before.map Prod.fst) :
    Draft.member room (d.draft before) k (w.nodeWith e) = .ok (d.draft (before ++ [(k, w)])) := by
  rcases List.mem_cons.1 hfield with heq | hfield
  · cases heq
    have hread := reads_text d.name w hw e he room (Nat.zero_le room)
    simp [Draft.member, draft, once_given hnew hread]
  · have hne : k ≠ "name" := by
      rintro rfl
      simp [DestinationOptions.members] at hfield
    have hdepth := DestinationOptions.depth_of_mem_members hfield hw
    have hvalue := value_nodeWith he w room (Nat.le_trans hdepth hroom)
    simp [Draft.member, draft, hne, hne.symm, hvalue, bind, Except.bind, pure, Except.pure]

theorem reads (d : DestinationConfig) : decoder.Reads 2 d.json d := by
  refine reads_map (by simp [DestinationOptions.members]) fun ns hns e he room hroom => ?_
  have hread := fold_members (e := e) (Draft.member room) d.draft hns.nodup_keys
    fun before m hm hnew => by
      obtain ⟨v, hfield, hw⟩ := hns.field hm
      exact d.member_draft he hroom hfield hw hnew
  have hoptions := DestinationOptions.decoder_of_holds hns.others
  simp only [decoder, descend, if_neg (Nat.succ_ne_zero room), Nat.add_sub_cancel]
  rw [show ({} : Draft) = d.draft [] from rfl, hread]
  simp only [draft, given_perm hns.keys, bind, Except.bind, hoptions]
  rfl

end DestinationConfig

/-! ## Monitors -/

namespace ModelSpec

def draft (m : ModelSpec) (keys : List String) : Draft where
  name := given keys "name" m.name
  config := given keys "config" m.config

theorem member_draft (m : ModelSpec) (he : e.reading = .ok ()) (hroom : 1 ≤ room)
    {keys : List String} {k : String} {v w : Json.Value}
    (hfield : (k, v) ∈ [("name", .text m.name), ("config", m.config.json)]) (hw : Reordered v w)
    (hnew : k ∉ keys) :
    Draft.member room (m.draft keys) k (w.nodeWith e) = .ok (m.draft (keys ++ [k])) := by
  simp only [List.mem_cons, Prod.mk.injEq, List.not_mem_nil, or_false] at hfield
  rcases hfield with ⟨rfl, rfl⟩ | ⟨rfl, rfl⟩
  · have hread := reads_text m.name w hw e he room (Nat.zero_le room)
    simp [Draft.member, draft, once_given hnew hread]
  · have hread := m.config.reads w hw e he room hroom
    simp [Draft.member, draft, once_given hnew hread]

theorem reads (m : ModelSpec) : decoder.Reads 2 m.json m := by
  refine reads_record Draft.member m.draft (fun _ _ => rfl) (by simp)
    (fun _ he _ hroom _ _ _ _ => m.member_draft he hroom) fun keys hkeys => ?_
  simp only [draft, given_perm hkeys]
  rfl

end ModelSpec

namespace MonitorSpec

def draft (m : MonitorSpec) (keys : List String) : Draft where
  name := given keys "name" m.name
  model := given keys "model" m.model
  period := given keys "period" m.period
  labels := given keys "labels" m.labels

theorem member_draft {m : MonitorSpec} (hperiod : m.period.Fits) (he : e.reading = .ok ())
    (hroom : 2 ≤ room) {keys : List String} {k : String} {v w : Json.Value}
    (hfield : (k, v) ∈ [("name", .text m.name), ("model", m.model.json), ("period", m.period.json),
      ("labels", m.labels.json)])
    (hw : Reordered v w) (hnew : k ∉ keys) :
    Draft.member room (m.draft keys) k (w.nodeWith e) = .ok (m.draft (keys ++ [k])) := by
  simp only [List.mem_cons, Prod.mk.injEq, List.not_mem_nil, or_false] at hfield
  rcases hfield with ⟨rfl, rfl⟩ | ⟨rfl, rfl⟩ | ⟨rfl, rfl⟩ | ⟨rfl, rfl⟩
  · have hread := reads_text m.name w hw e he room (Nat.zero_le room)
    simp [Draft.member, draft, once_given hnew hread]
  · have hread := m.model.reads w hw e he room hroom
    simp [Draft.member, draft, once_given hnew hread]
  · have hread := Duration.reads hperiod w hw e he room (Nat.zero_le room)
    simp [Draft.member, draft, once_given hnew hread]
  · have hread := m.labels.reads w hw e he room (Nat.le_of_succ_le hroom)
    simp [Draft.member, draft, once_given hnew hread]

theorem reads {m : MonitorSpec} (hperiod : m.period.Fits) : decoder.Reads 3 m.json m := by
  refine reads_record Draft.member m.draft (fun _ _ => rfl) (by simp)
    (fun _ he _ hroom _ _ _ _ => member_draft hperiod he hroom) fun keys hkeys => ?_
  simp only [draft, given_perm hkeys]
  rfl

end MonitorSpec

/-! ## The whole configuration -/

theorem mem_optionalMember {α : Type} {name k : String} {f : α → Json.Value} {o : Option α}
    {v : Json.Value} : (k, v) ∈ optionalMember name f o ↔ ∃ a, o = some a ∧ k = name ∧ v = f a := by
  cases o with
  | none => simp [optionalMember]
  | some a => simp [optionalMember]

theorem keys_optionalMember {α : Type} (name : String) (f : α → Json.Value) (o : Option α) :
    (optionalMember name f o).map Prod.fst = if o.isSome then [name] else [] := by
  cases o <;> rfl

namespace Config

/-- The durations of a configuration fit. -/
structure Fits (c : Config) : Prop where
  periods : ∀ m ∈ c.monitors, m.period.Fits
  interval : ∀ d, c.selfMetricsInterval = some d → d.Fits

variable {c : Config}

def draft (c : Config) (keys : List String) : Draft where
  destinations := given keys "destinations" c.destinations
  monitors := given keys "monitors" c.monitors
  globalLabels := given keys "global_labels" c.globalLabels
  selfMetricsInterval := given keys "self_metrics_interval" c.selfMetricsInterval

def members (c : Config) : List (String × Json.Value) :=
  [("destinations", .list (c.destinations.map DestinationConfig.json)),
      ("monitors", .list (c.monitors.map MonitorSpec.json))] ++
    optionalMember "global_labels" Table.json c.globalLabels ++
    optionalMember "self_metrics_interval" Duration.json c.selfMetricsInterval

theorem member_draft (hfits : c.Fits) (he : e.reading = .ok ()) (hroom : 4 ≤ room)
    {keys : List String} {k : String} {v w : Json.Value} (hfield : (k, v) ∈ c.members)
    (hw : Reordered v w) (hnew : k ∉ keys) :
    Draft.member room (c.draft keys) k (w.nodeWith e) = .ok (c.draft (keys ++ [k])) := by
  simp only [members, List.mem_append, List.mem_cons, Prod.mk.injEq, List.not_mem_nil, or_false,
    mem_optionalMember] at hfield
  rcases hfield with ((⟨rfl, rfl⟩ | ⟨rfl, rfl⟩) | ⟨t, ht, rfl, rfl⟩) | ⟨d, hd, rfl, rfl⟩
  · have hread : destinationsDecoder.Reads 3 _ c.destinations := reads_list fun d _ => d.reads
    have hread := hread w hw e he room (by omega)
    simp [Draft.member, draft, once_given hnew hread]
  · have hread : monitorsDecoder.Reads 4 _ c.monitors :=
      reads_list fun m hm => MonitorSpec.reads (hfits.periods m hm)
    have hread := hread w hw e he room hroom
    simp [Draft.member, draft, once_given hnew hread]
  · have hread : labelsDecoder.Reads 1 t.json (some t) := reads_optional nofun t.reads
    have hread := hread w hw e he room (by omega)
    rw [← ht] at hread
    simp [Draft.member, draft, once_given hnew hread]
  · have hread : intervalDecoder.Reads 0 d.json (some d) :=
      reads_optional nofun (Duration.reads (hfits.interval d hd))
    have hread := hread w hw e he room (Nat.zero_le room)
    rw [← hd] at hread
    simp [Draft.member, draft, once_given hnew hread]

theorem keys_members (c : Config) : c.members.map Prod.fst = ["destinations", "monitors"] ++
    (if c.globalLabels.isSome then ["global_labels"] else []) ++
    (if c.selfMetricsInterval.isSome then ["self_metrics_interval"] else []) := by
  rw [members, List.map_append, List.map_append, keys_optionalMember, keys_optionalMember]
  rfl

theorem reads (hfits : c.Fits) : decoder.Reads 5 c.json c := by
  have hnodup : (c.members.map Prod.fst).Nodup := by
    rw [keys_members]
    split <;> split <;> decide
  refine reads_record Draft.member c.draft (fun _ _ => rfl) hnodup
    (fun _ he _ hroom _ _ _ _ => member_draft hfits he hroom) fun keys hkeys => ?_
  simp only [draft, given_perm hkeys]
  cases c with
  | mk destinations monitors globalLabels selfMetricsInterval =>
    cases globalLabels <;> cases selfMetricsInterval <;> rfl

/-! ## Texts -/

/-- The text is the JSON form of the configuration, with the members of its maps in some order. -/
def WrittenAs (c : Config) (text : String) : Prop :=
  ∃ v, Reordered c.json v ∧ Written (.value v) text.toList

theorem plain_json (c : Config) : c.json.plain = true := by
  have htable : ∀ t : Table String, t.json.plain = true := by
    refine fun t => membersPlain_iff.2 fun m hm => ?_
    obtain ⟨entry, -, rfl⟩ := List.mem_map.1 hm
    rfl
  have hdestination : ∀ d : DestinationConfig, d.json.plain = true := by
    intro d
    simp [DestinationConfig.json, DestinationOptions.members, Value.plain, membersPlain, itemsPlain_iff,
      UInt64.toNat_lt_size]
  have hmonitor : ∀ m : MonitorSpec, m.json.plain = true := by
    intro m
    simp [MonitorSpec.json, ModelSpec.json, Duration.json, Value.plain, membersPlain, htable]
  cases c with
  | mk destinations monitors globalLabels selfMetricsInterval =>
    cases globalLabels <;> cases selfMetricsInterval <;>
      simp [json, optionalMember, Duration.json, Value.plain, membersPlain, itemsPlain_iff, hdestination,
        hmonitor, htable]

/-- The text that the form renders to is one way to write a configuration. -/
theorem writtenAs_render (c : Config) : c.WrittenAs c.json.render :=
  ⟨c.json, .refl c.json, written_render c.plain_json⟩

theorem decode_written {text : String} (hfits : c.Fits) (h : c.WrittenAs text) :
    decode decoder text = .ok c := by
  obtain ⟨v, hv, hwritten⟩ := h
  have hread := reads hfits v hv .closed rfl depthLimit (by decide)
  simp only [decode, scan_of_written hwritten, hread, bind, Except.bind]
  rfl

theorem nameless?_eq_none (h : ∀ m ∈ c.monitors, m.model.name ≠ "") : c.nameless? = none :=
  List.find?_eq_none.2 fun m hm => by simpa using h m hm

theorem nameless?_eq_some {before after : List MonitorSpec} {m : MonitorSpec}
    (hmonitors : c.monitors = before ++ m :: after) (hbefore : ∀ b ∈ before, b.model.name ≠ "")
    (hm : m.model.name = "") : c.nameless? = some m := by
  have hnone : before.find? (fun m => m.model.name = "") = none :=
    List.find?_eq_none.2 fun b hb => by simpa using hbefore b hb
  rw [nameless?, hmonitors, List.find?_append, hnone, List.find?_cons_of_pos (by simpa using hm)]
  rfl

/-- However a configuration is written, it is read back if all of its monitors name their models; else
the first monitor that does not is reported. -/
theorem parse_written {text : String} (hfits : c.Fits) (h : c.WrittenAs text) :
    ((∀ m ∈ c.monitors, m.model.name ≠ "") → parse text = .ok c) ∧
    ∀ before m after, c.monitors = before ++ m :: after → (∀ b ∈ before, b.model.name ≠ "") →
      m.model.name = "" → parse text = .error (.config s!"monitor `{m.name}`: empty model name") := by
  have hread := decode_written hfits h
  refine ⟨fun hnames => ?_, fun before m after hmonitors hbefore hm => ?_⟩
  · simp only [parse, read, hread, nameless?_eq_none hnames]
    rfl
  · simp only [parse, read, hread, nameless?_eq_some hmonitors hbefore hm]
    rfl

/-- A configuration with a text to be escaped. -/
def oneMonitor : Config where
  destinations := [{ name := "vm",
                     options := { url := "http://vm:8428", headers := ["X-Note", "\"a\\b\""] } }]
  monitors := [{ name := "api", model := { name := "tcp_probe" }, period := .ofMillis 1500,
                 labels := .ofList [("team", "web"), ("host", "h1")] }]
  selfMetricsInterval := some (.ofSeconds 60)

theorem oneMonitor_read_back : ∃ text, oneMonitor.Fits ∧ oneMonitor.WrittenAs text ∧
    (∀ m ∈ oneMonitor.monitors, m.model.name ≠ "") ∧ parse text = .ok oneMonitor := by
  have hfits : oneMonitor.Fits := ⟨by decide, by rintro d ⟨⟩; decide⟩
  have hwritten : oneMonitor.WrittenAs (Value.map oneMonitor.members.reverse).render :=
    ⟨_, .map (.refl _) (List.reverse_perm _), written_render (by decide)⟩
  exact ⟨_, hfits, hwritten, by decide, (parse_written hfits hwritten).1 (by decide)⟩

end Config

end MetricRelay
