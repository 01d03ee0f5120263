import Mathlib.Data.List.Induction
import MetricRelay.Collector.Probe

/-!
# The probe over its life

`readTarget_cases` says what becomes of a configuration: it asks for a target (`Asks`), or it is
refused for one of the reasons that `Refused` lists. A probe is changed by nothing but a configuration
that is accepted, so after any calls its target is what the one accepted last asks for
(`run_of_lastAccepted`). An observation is done just when it `Reaches` that target.
-/

namespace MetricRelay

theorem ConfigMap.get?_eq_some_iff {c : ConfigMap} {key v : String} :
    c.get? key = some v ↔ c.texts.get? key = some v ∧ v ≠ "" := by
  simp [ConfigMap.get?, Option.filter_eq_some_iff]

theorem ConfigMap.get?_eq_none_iff {c : ConfigMap} {key : String} :
    c.get? key = none ↔ ∀ v, c.texts.get? key = some v → v = "" := by
  simp [ConfigMap.get?, Option.filter_eq_none_iff]

namespace Probe

/-! ## Configurations -/

/-- A configuration that says where to connect to, and no timeout that cannot be read. An empty text
says nothing. -/
structure Acceptable (c : ConfigMap) : Prop where
  address : ∃ a, c.texts.get? "address" = some a ∧ a ≠ "" ∧ ':' ∈ a.toList
  timeout : ∀ v, c.texts.get? "timeout" = some v → v = "" ∨ ∃ d, Duration.parse v = .ok d

/-- The target that a configuration asks for. -/
structure Asks (c : ConfigMap) (t : Target) : Prop where
  address : c.texts.get? "address" = some t.address
  given : ∀ v, c.texts.get? "timeout" = some v → v ≠ "" → Duration.parse v = .ok t.timeout
  unset : (∀ v, c.texts.get? "timeout" = some v → v = "") → t.timeout = defaultTimeout

/-- Why a configuration is refused. -/
inductive Refused (c : ConfigMap) : CollectorError → Prop where
  | noAddress : c.get? "address" = none → Refused c (.missingField "address")
  | noPort {a : String} : c.get? "address" = some a → ':' ∉ a.toList →
      Refused c (.invalidField "address" (Text.quote a ++ ": expected host:port"))
  | badTimeout {v : String} {f : Duration.Fault} : c.get? "timeout" = some v →
      Duration.parse v = .error f →
      Refused c (.invalidField "timeout" (Text.quote v ++ ": " ++ f.message))

variable {c : ConfigMap} {e : CollectorError} {t t' : Target} {p : Probe}

theorem Asks.unique (h : Asks c t) (h' : Asks c t') : t = t' := by
  obtain ⟨address, timeout⟩ := t
  obtain ⟨address', timeout'⟩ := t'
  have haddress : address = address' := Option.some.inj (h.address.symm.trans h'.address)
  have htimeout : timeout = timeout' := by
    by_cases hunset : ∀ v, c.texts.get? "timeout" = some v → v = ""
    · exact (h.unset hunset).trans (h'.unset hunset).symm
    · push Not at hunset
      obtain ⟨v, hv, hne⟩ := hunset
      exact Except.ok.inj ((h.given v hv hne).symm.trans (h'.given v hv hne))
  rw [haddress, htimeout]

theorem Refused.not_acceptable (h : Refused c e) : ¬Acceptable c := by
  rintro ⟨⟨a, ha, hne, hcolon⟩, htimeout⟩
  cases h with
  | noAddress hnone => exact hne (ConfigMap.get?_eq_none_iff.1 hnone a ha)
  | noPort hsome hport =>
    obtain ⟨hget, -⟩ := ConfigMap.get?_eq_some_iff.1 hsome
    cases ha.symm.trans hget
    exact hport hcolon
  | badTimeout hsome hparse =>
    have ⟨hget, hv⟩ := ConfigMap.get?_eq_some_iff.1 hsome
    rcases htimeout _ hget with hempty | ⟨d, hd⟩
    · exact hv hempty
    · cases hparse.symm.trans hd

/-- A configuration asks for a target, or it is refused. -/
theorem readTarget_cases (c : ConfigMap) :
    (∃ t, Acceptable c ∧ Asks c t ∧ readTarget c = .ok t) ∨
      ∃ e, Refused c e ∧ readTarget c = .error e := by
  unfold readTarget ConfigMap.require ConfigMap.duration?
  cases ha : c.get? "address" with
  | none => exact .inr ⟨_, .noAddress ha, rfl⟩
  | some a =>
    have ⟨haddress, hne⟩ := ConfigMap.get?_eq_some_iff.1 ha
    by_cases hcolon : ':' ∈ a.toList
    · cases ht : c.get? "timeout" with
      | none =>
        have hunset := ConfigMap.get?_eq_none_iff.1 ht
        refine .inl ⟨⟨a, defaultTimeout⟩, ⟨⟨a, haddress, hne, hcolon⟩, fun v hv => .inl (hunset v hv)⟩,
          ⟨haddress, fun v hv hv' => absurd (hunset v hv) hv', fun _ => rfl⟩, ?_⟩
        simp [hcolon, bind, Except.bind, pure, Except.pure]
      | some v =>
        have ⟨htext, hv⟩ := ConfigMap.get?_eq_some_iff.1 ht
        cases hparse : Duration.parse v with
        | error f =>
          refine .inr ⟨_, .badTimeout ht hparse, ?_⟩
          simp [hcolon, hparse, bind, Except.bind, ConfigMap.invalid]
        | ok d =>
          have hread : ∀ u, c.texts.get? "timeout" = some u → u = v := fun u hu =>
            Option.some.inj (hu.symm.trans htext)
          refine .inl ⟨⟨a, d⟩, ⟨⟨a, haddress, hne, hcolon⟩, fun u hu => .inr ⟨d, hread u hu ▸ hparse⟩⟩,
            ⟨haddress, fun u hu _ => hread u hu ▸ hparse, fun h => absurd (h v htext) hv⟩, ?_⟩
          simp [hcolon, hparse, bind, Except.bind, pure, Except.pure]
    · refine .inr ⟨_, .noPort ha hcolon, ?_⟩
      simp [hcolon, bind, Except.bind, throw, throwThe, MonadExceptOf.throw]

/-- An accepted configuration leaves nothing of the target there was. -/
theorem init_of_acceptable (h : Acceptable c) (p : Probe) :
    ∃ t, Asks c t ∧ Collector.init c p = (.ok (), { target := some t : Probe }) := by
  rcases readTarget_cases c with ⟨t, -, hasks, hread⟩ | ⟨e, he, -⟩
  · exact ⟨t, hasks, by simp only [Collector.init, init, hread]⟩
  · exact absurd h he.not_acceptable

theorem init_of_not_acceptable (h : ¬Acceptable c) (p : Probe) :
    ∃ e, Refused c e ∧ Collector.init c p = (.error e, p) := by
  rcases readTarget_cases c with ⟨t, hok, -⟩ | ⟨e, he, hread⟩
  · exact absurd hok h
  · exact ⟨e, he, by simp only [Collector.init, init, hread]⟩

theorem init_eq_ok_iff (c : ConfigMap) (p : Probe) :
    (Collector.init c p).1 = .ok () ↔ Acceptable c := by
  refine ⟨fun hok => ?_, fun h => ?_⟩
  · by_contra h
    obtain ⟨e, -, hinit⟩ := init_of_not_acceptable h p
    rw [hinit] at hok
    cases hok
  · obtain ⟨t, -, hinit⟩ := init_of_acceptable h p
    rw [hinit]

theorem refused_of_init (h : (Collector.init c p).1 = .error e) :
    Refused c e ∧ (Collector.init c p).2 = p := by
  have hnot : ¬Acceptable c := by
    intro hok
    rw [(init_eq_ok_iff c p).2 hok] at h
    cases h
  obtain ⟨e', hrefused, hinit⟩ := init_of_not_acceptable hnot p
  rw [hinit] at h ⊢
  cases h
  exact ⟨hrefused, rfl⟩

/-! ## Observations -/

/-- Connecting to a target succeeds within its timeout. -/
structure Reaches (connect : Connect) (t : Target) : Prop where
  port : isPort (portText t.address) = true
  connected : ∃ elapsed, connect t.address = .after elapsed (.ok ()) ∧
    elapsed.nanos ≤ t.timeout.nanos

/-- What an observation of a target pushes: how long it took to connect, and whether it worked. It is done
just when it did. -/
def Pushes (connect : Connect) (t : Target) (g : Gathering) : Prop :=
  ∃ (elapsed : Binary64) (up : Int64),
    g.samples = [⟨"tcp_probe", "connect_seconds", .float elapsed,
        Table.ofList [("address", t.address)], none⟩,
      ⟨"tcp_probe", "up", .int up, Table.ofList [("address", t.address)], none⟩] ∧
    (up = 1 ↔ g.outcome.result = .ok ()) ∧ (up = 0 ↔ ∃ e, g.outcome.result = .error e) ∧
    (g.outcome.result = .ok () ↔ Reaches connect t)

/-- An attempt is given up at the timeout, and is not made without a port to connect to. -/
theorem attempt_done_iff (connect : Connect) (t : Target) :
    (attempt connect t).2 = .done ↔ Reaches connect t := by
  unfold attempt
  by_cases hport : isPort (portText t.address) = true
  · rw [if_pos hport]
    cases hconnect : connect t.address with
    | never => exact ⟨nofun, fun h => by simpa [hconnect] using h.connected⟩
    | after elapsed result =>
      have hin : Reaches connect t ↔ result = .ok () ∧ elapsed.nanos ≤ t.timeout.nanos := by
        refine ⟨fun h => ?_, fun ⟨hok, hle⟩ => ⟨hport, elapsed, hok ▸ hconnect, hle⟩⟩
        obtain ⟨elapsed', hafter, hle⟩ := h.connected
        cases hconnect.symm.trans hafter
        exact ⟨rfl, hle⟩
      rw [hin]
      cases result <;> by_cases hle : elapsed.nanos ≤ t.timeout.nanos <;>
        simp [Eventually.within, hle]
  · rw [if_neg hport]
    exact ⟨nofun, fun h => absurd h.port hport⟩

theorem gather_of_none (h : p.target = none) (connect : Connect) :
    (Collector.gather connect p).1.samples = [] ∧
      ∃ e, (Collector.gather connect p).1.outcome.result = .error e := by
  have hgather : Collector.gather connect p =
      (⟨[], .failed (.other "probe used before init")⟩, p) := by
    simp only [Collector.gather, gather, h]
  rw [hgather]
  exact ⟨rfl, _, rfl⟩

theorem gather_of_some (h : p.target = some t) (connect : Connect) :
    Pushes connect t (Collector.gather connect p).1 := by
  have hgather : Collector.gather connect p =
      (⟨[.sleep (attempt connect t).1.millisUp,
        .push (sample t "connect_seconds" (.float (seconds (attempt connect t).1))),
        .push (sample t "up" (.ofBool ((attempt connect t).2 = .done)))],
        (attempt connect t).2⟩, p) := by
    simp only [Collector.gather, gather, h]
  rw [hgather]
  have hdone := attempt_done_iff connect t
  refine ⟨seconds (attempt connect t).1, if (attempt connect t).2 = .done then 1 else 0, ?_, ?_⟩
  · simp [Gathering.samples, sample, Value.ofBool, name, Table.ofList]
  · cases houtcome : (attempt connect t).2 <;> simp [Outcome.result, ← hdone, houtcome]

/-! ## Any calls -/

inductive Call where
  | init (c : ConfigMap)
  | gather (connect : Connect)

/-- The probe after a call. -/
def call (p : Probe) : Call → Probe
  | .init c => (Collector.init c p).2
  | .gather connect => (Collector.gather connect p).2

def run (p : Probe) (calls : List Call) : Probe := calls.foldl call p

/-- No configuration among the calls is accepted. -/
def NoneAccepted (calls : List Call) : Prop := ∀ c, .init c ∈ calls → ¬Acceptable c

/-- The configuration that was accepted last. -/
def LastAccepted (calls : List Call) (c : ConfigMap) : Prop :=
  Acceptable c ∧ ∃ before later, calls = before ++ .init c :: later ∧ NoneAccepted later

theorem run_of_noneAccepted {calls : List Call} (h : NoneAccepted calls) (p : Probe) :
    p.run calls = p := by
  induction calls with
  | nil => rfl
  | cons x more ih =>
    have hmore : NoneAccepted more := fun c hc => h c (List.mem_cons_of_mem _ hc)
    have hcall : p.call x = p := by
      cases x with
      | init c =>
        obtain ⟨e, -, hinit⟩ := init_of_not_acceptable (h c List.mem_cons_self) p
        rw [call, hinit]
      | gather connect => rfl
    rw [run, List.foldl_cons, hcall]
    exact ih hmore

theorem run_of_lastAccepted {calls : List Call} (h : LastAccepted calls c) (p : Probe) :
    ∃ t, Asks c t ∧ (p.run calls).target = some t := by
  obtain ⟨hok, before, later, rfl, hlater⟩ := h
  obtain ⟨t, hasks, hinit⟩ := init_of_acceptable hok (p.run before)
  refine ⟨t, hasks, ?_⟩
  have hrun : p.run (before ++ .init c :: later) = ((p.run before).call (.init c)).run later := by
    rw [run, List.foldl_append]
    rfl
  rw [hrun, run_of_noneAccepted hlater, call, hinit]

theorem noneAccepted_or_exists_last (calls : List Call) :
    NoneAccepted calls ∨ ∃ c, LastAccepted calls c := by
  induction calls with
  | nil => exact .inl fun c hc => absurd hc List.not_mem_nil
  | cons x more ih =>
    rcases ih with hnone | ⟨c, hok, before, later, rfl, hlater⟩
    · by_cases hx : ∃ c, x = .init c ∧ Acceptable c
      · obtain ⟨c, rfl, hok⟩ := hx
        exact .inr ⟨c, hok, [], more, rfl, hnone⟩
      · refine .inl fun c hc hok => ?_
        rcases List.mem_cons.1 hc with rfl | hmem
        · exact hx ⟨c, rfl, hok⟩
        · exact hnone c hmem hok
    · exact .inr ⟨c, hok, x :: before, later, rfl, hlater⟩

theorem observes_of_lastAccepted {calls : List Call} (h : LastAccepted calls c) :
    ∃ t, Asks c t ∧ (({} : Probe).run calls).target = some t ∧
      ∀ connect, Pushes connect t (Collector.gather connect (({} : Probe).run calls)).1 := by
  obtain ⟨t, hasks, htarget⟩ := run_of_lastAccepted h {}
  exact ⟨t, hasks, htarget, gather_of_some htarget⟩

theorem gather_fails_iff (calls : List Call) (connect : Connect) :
    ((Collector.gather connect (({} : Probe).run calls)).1.samples = [] ∧
      ∃ e, (Collector.gather connect (({} : Probe).run calls)).1.outcome.result = .error e) ↔
        NoneAccepted calls := by
  constructor
  · rintro ⟨hnothing, -⟩
    rcases noneAccepted_or_exists_last calls with hnone | ⟨c, hc⟩
    · exact hnone
    · obtain ⟨t, -, -, hpushes⟩ := observes_of_lastAccepted hc
      obtain ⟨elapsed, up, hsamples, -⟩ := hpushes connect
      rw [hnothing] at hsamples
      cases hsamples
  · intro hnone
    rw [run_of_noneAccepted hnone]
    exact gather_of_none rfl connect

/-- After any calls a configuration is accepted exactly if it is `Acceptable`, and then the probe has
the target that it asks for; if it is refused, the probe stays as it is. An observation fails without
a sample exactly if no configuration has been accepted yet, else it pushes its two samples for the
address of the last one that was, and succeeds if that is reached in time. -/
theorem configured_by_last_accepted (calls : List Call) :
    (∀ c, (Collector.init c (({} : Probe).run calls)).1 = .ok () ↔ Acceptable c) ∧
    (∀ c e, (Collector.init c (({} : Probe).run calls)).1 = .error e →
      Refused c e ∧ (Collector.init c (({} : Probe).run calls)).2 = ({} : Probe).run calls) ∧
    (∀ c, Acceptable c → ∃ t, (∀ t', Asks c t' ↔ t' = t) ∧
      (Collector.init c (({} : Probe).run calls)).2.target = some t) ∧
    (∀ connect, ((Collector.gather connect (({} : Probe).run calls)).1.samples = [] ∧
      ∃ e, (Collector.gather connect (({} : Probe).run calls)).1.outcome.result = .error e) ↔
        NoneAccepted calls) ∧
    (NoneAccepted calls ∨ ∃ c, LastAccepted calls c) ∧
    ∀ c, LastAccepted calls c → ∃ t, Asks c t ∧ (({} : Probe).run calls).target = some t ∧
      ∀ connect, Pushes connect t (Collector.gather connect (({} : Probe).run calls)).1 := by
  refine ⟨fun c => init_eq_ok_iff c _, fun c e => refused_of_init, fun c h => ?_,
    gather_fails_iff calls, noneAccepted_or_exists_last calls, fun c => observes_of_lastAccepted⟩
  obtain ⟨t, hasks, hinit⟩ := init_of_acceptable h (({} : Probe).run calls)
  rw [hinit]
  exact ⟨t, fun t' => ⟨fun h' => h'.unique hasks, fun h' => h' ▸ hasks⟩, rfl⟩

/-- The first configuration is accepted; then one lacks a port, and one has a timeout that cannot be
read. -/
def reconfigurations : List Call :=
  [.init ⟨Table.ofList [("address", "db:5432"), ("timeout", "500ms")]⟩,
    .gather fun _ => .never, .init ⟨Table.ofList [("address", "db")]⟩,
    .init ⟨Table.ofList [("address", "cache:6379"), ("timeout", "soon")]⟩]

theorem reconfigurations_keep_first :
    (({} : Probe).run reconfigurations).target = some ⟨"db:5432", .ofMillis 500⟩ ∧
      ∀ connect, Pushes connect ⟨"db:5432", .ofMillis 500⟩
        (Collector.gather connect (({} : Probe).run reconfigurations)).1 := by
  have hparse : Duration.parse "500ms" = .ok (.ofMillis 500) := rfl
  have hread : ∀ v, (Table.ofList [("address", "db:5432"), ("timeout", "500ms")]).get? "timeout" =
      some v → "500ms" = v := fun v hv => Option.some.inj hv
  have hasks : Asks ⟨Table.ofList [("address", "db:5432"), ("timeout", "500ms")]⟩
      ⟨"db:5432", .ofMillis 500⟩ :=
    ⟨rfl, fun v hv _ => hread v hv ▸ hparse, fun h => absurd (h "500ms" rfl) (by decide)⟩
  have hok : Acceptable ⟨Table.ofList [("address", "db:5432"), ("timeout", "500ms")]⟩ :=
    ⟨⟨"db:5432", rfl, by decide, by decide⟩, fun v hv => .inr ⟨_, hread v hv ▸ hparse⟩⟩
  have hrefused : NoneAccepted (reconfigurations.drop 1) := by
    intro c hc
    simp only [reconfigurations, List.drop_succ_cons, List.drop_zero, List.mem_cons,
      Call.init.injEq, reduceCtorEq, false_or, List.not_mem_nil, or_false] at hc
    rcases hc with rfl | rfl
    · exact (Refused.noPort (a := "db") rfl (by decide)).not_acceptable
    · exact (Refused.badTimeout (v := "soon") rfl rfl).not_acceptable
  obtain ⟨-, -, -, -, -, hlast⟩ := configured_by_last_accepted reconfigurations
  obtain ⟨t, ht, htarget, hpushes⟩ := hlast _ ⟨hok, [], _, rfl, hrefused⟩
  cases ht.unique hasks
  exact ⟨htarget, hpushes⟩

end Probe

end MetricRelay
