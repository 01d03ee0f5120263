import Mathlib.Data.List.Induction
import MetricRelay.Proofs.Writer.Isolation

/-!
# Registered destinations

A register succeeds or fails by its options alone (`register_ok_iff`), so rejected ones can be left out of
a run (`run_accepted`). The options that are `Standing` for a name are those of its last successful
register, unless a successful deregister came after: the table holds these and no others
(`get?_run_iff`), and a fan-out sends what a destination makes of them (`follows_of_destinations`).

Which texts are URLs, and of what, is up to the client.
-/

namespace MetricRelay

namespace DestinationOptions

/-- A header name at every even place, a header value at every odd one. -/
def HeaderPairs (entries : List String) : Prop :=
  ∀ i e, entries[i]? = some e →
    if i % 2 = 0 then (Http.headerName? e).isSome = true else Http.isHeaderValue e = true

theorem headerPairs_nil : HeaderPairs [] := by
  intro i e he
  cases he

theorem headerPairs_cons {name value : String} {r : List String} :
    HeaderPairs (name :: value :: r) ↔
      (Http.headerName? name).isSome = true ∧ Http.isHeaderValue value = true ∧ HeaderPairs r := by
  constructor
  · intro h
    refine ⟨h 0 name rfl, h 1 value rfl, fun i e he => ?_⟩
    have hshift := h (i + 2) e he
    rwa [Nat.add_mod_right] at hshift
  · rintro ⟨hname, hvalue, hr⟩ i e he
    match i, he with
    | 0, he => cases he; exact hname
    | 1, he => cases he; exact hvalue
    | i + 2, he =>
      rw [Nat.add_mod_right]
      exact hr i e he

theorem readHeaders_ok_iff (h : Http.Headers) {entries : List String}
    (heven : entries.length % 2 = 0) :
    (∃ lines, readHeaders h entries = .ok lines) ↔ HeaderPairs entries := by
  fun_induction readHeaders h entries with
  | case1 h name value r hname =>
    refine iff_of_false (fun ⟨_, hl⟩ => by cases hl) fun hp => ?_
    simpa [hname] using (headerPairs_cons.1 hp).1
  | case2 h name value r n hname hvalue ih =>
    have hr : r.length % 2 = 0 := by rwa [← Nat.add_mod_right]
    rw [ih hr, headerPairs_cons]
    simp [hname, hvalue]
  | case3 h name value r n hname hvalue =>
    refine iff_of_false (fun ⟨_, hl⟩ => by cases hl) fun hp => ?_
    exact hvalue (headerPairs_cons.1 hp).2.1
  | case4 entries h hshort =>
    match entries, hshort with
    | [], _ => exact iff_of_true ⟨h, rfl⟩ headerPairs_nil
    | [_], _ => simp at heven
    | name :: value :: r, hshort => exact absurd rfl (hshort name value r)

/-- The URL can be read, and the headers are pairs of a name and a value. -/
structure WellFormed (o : DestinationOptions) (readUrl : Url.Reader) : Prop where
  url : ∃ url, readUrl o.url = .ok url
  even : o.headers.length % 2 = 0
  headers : HeaderPairs o.headers

theorem headerLines_ok_iff (o : DestinationOptions) :
    (∃ lines, o.headerLines = .ok lines) ↔ o.headers.length % 2 = 0 ∧ HeaderPairs o.headers := by
  unfold headerLines
  by_cases heven : o.headers.length % 2 = 0
  · have hodd : ¬o.headers.length % 2 = 1 := by omega
    rw [if_neg hodd, readHeaders_ok_iff .empty heven]
    simp [heven]
  · have hodd : o.headers.length % 2 = 1 := by omega
    simp [hodd]

end DestinationOptions

namespace Destination

variable {name : String} {options : DestinationOptions} {readUrl : Url.Reader} {d : Destination}

theorem of_ok_iff (name : String) :
    (∃ d, of name options readUrl = .ok d) ↔ options.WellFormed readUrl := by
  unfold of
  cases hurl : readUrl options.url with
  | error e =>
    refine iff_of_false (fun ⟨_, hd⟩ => by cases hd) fun hw => ?_
    obtain ⟨url, hok⟩ := hw.url
    rw [hurl] at hok
    cases hok
  | ok url =>
    have hlines := options.headerLines_ok_iff
    cases hl : options.headerLines with
    | error e =>
      refine iff_of_false (fun ⟨_, hd⟩ => by cases hd) fun hw => ?_
      obtain ⟨lines, hok⟩ := hlines.2 ⟨hw.even, hw.headers⟩
      rw [hl] at hok
      cases hok
    | ok lines =>
      obtain ⟨heven, hpairs⟩ := hlines.1 ⟨lines, hl⟩
      exact iff_of_true ⟨_, rfl⟩ ⟨⟨url, hurl⟩, heven, hpairs⟩

/-- What a destination is made of. -/
structure MadeOf (d : Destination) (readUrl : Url.Reader) (name : String)
    (options : DestinationOptions) : Prop where
  named : d.name = name
  given : d.options = options
  url : readUrl options.url = .ok d.url
  headers : options.headerLines = .ok d.headers

theorem of_eq_ok (h : of name options readUrl = .ok d) : d.MadeOf readUrl name options := by
  unfold of at h
  cases hurl : readUrl options.url with
  | error e =>
    rw [hurl] at h
    cases h
  | ok url =>
    rw [hurl] at h
    cases hlines : options.headerLines with
    | error e =>
      rw [hlines] at h
      cases h
    | ok lines =>
      rw [hlines] at h
      cases h
      exact ⟨rfl, rfl, hurl, hlines⟩

end Destination

namespace Writer

variable {net : Network} {settings : WriterSettings} {s : Session} {w : Writer} {name : String}
  {options : DestinationOptions} {readUrl : Url.Reader} {actions : List Action}

/-! ## Single calls -/

theorem register_ok_iff :
    (w.register name options readUrl).1 = .ok () ↔ options.WellFormed readUrl := by
  rw [← Destination.of_ok_iff name]
  unfold register
  cases Destination.of name options readUrl with
  | ok d => exact iff_of_true rfl ⟨d, rfl⟩
  | error e => exact iff_of_false (fun h => by cases h) fun ⟨_, h⟩ => by cases h

theorem register_of_ok {d : Destination} (h : Destination.of name options readUrl = .ok d) :
    w.register name options readUrl =
      (.ok (), { w with destinations := w.destinations.insert name d }) := by
  unfold register
  rw [h]

theorem register_of_error {e : Error} (h : (w.register name options readUrl).1 = .error e) :
    (w.register name options readUrl).2 = w := by
  unfold register at h ⊢
  cases hd : Destination.of name options readUrl with
  | ok d =>
    rw [hd] at h
    cases h
  | error e => rfl

theorem deregister_of_none (h : w.destinations.get? name = none) :
    w.deregister name = (.error (.notRegistered .destination name), w) := by
  unfold deregister Table.contains
  rw [h]
  rfl

theorem deregister_of_some {d : Destination} (h : w.destinations.get? name = some d) :
    w.deregister name = (.ok (), { w with destinations := w.destinations.erase name }) := by
  unfold deregister Table.contains
  rw [h]
  rfl

/-! ## Rejected registers -/

/-- Whether the call is a register that is rejected. -/
def Session.rejects (net : Network) (s : Session) : Action → Bool
  | .register name options => ((s.writer.register name options net.readUrl).1 matches .error _)
  | _ => false

/-- The actions without the registers that are rejected in the course of them. -/
def Session.accepted (net : Network) : Session → List Action → List Action
  | _, [] => []
  | s, a :: r =>
    if s.rejects net a then accepted net (s.act net a) r else a :: accepted net (s.act net a) r

theorem act_of_rejects {a : Action} (h : s.rejects net a = true) : s.act net a = s := by
  cases a with
  | register name options =>
    cases he : (s.writer.register name options net.readUrl).1 with
    | ok u => simp [Session.rejects, he] at h
    | error e => simp only [Session.act, register_of_error he]
  | _ => cases h

/-- Rejected registers leave no trace. -/
theorem run_accepted : s.run net (s.accepted net actions) = s.run net actions := by
  induction actions generalizing s with
  | nil => rfl
  | cons a r ih =>
    rw [Session.accepted]
    split
    · next h =>
      change s.run net ((s.act net a).accepted net r) = (s.act net a).run net r
      rw [act_of_rejects h, ih]
    · exact ih

/-! ## What a run leaves registered -/

/-- A successful call that registers or deregisters `name`. -/
def Session.Alters (net : Network) (s : Session) (name : String) : Action → Prop
  | .register n options => n = name ∧ (s.writer.register n options net.readUrl).1 = .ok ()
  | .deregister n => n = name ∧ (s.writer.deregister n).1 = .ok ()
  | _ => False

/-- The options are those of the last successful register of the name, and no successful deregister of it
came after. -/
def Standing (net : Network) (s : Session) (actions : List Action) (name : String)
    (options : DestinationOptions) : Prop :=
  ∃ before after, actions = before ++ .register name options :: after ∧
    ((s.run net before).writer.register name options net.readUrl).1 = .ok () ∧
    ∀ l a r, after = l ++ a :: r →
      ¬(s.run net (before ++ .register name options :: l)).Alters net name a

theorem standing_append_singleton {a : Action} :
    Standing net s (actions ++ [a]) name options ↔
      (a = .register name options ∧
        ((s.run net actions).writer.register name options net.readUrl).1 = .ok ()) ∨
      (Standing net s actions name options ∧ ¬(s.run net actions).Alters net name a) := by
  constructor
  · rintro ⟨before, after, hactions, hok, hafter⟩
    rcases List.eq_nil_or_concat after with rfl | ⟨m, b, rfl⟩
    · obtain ⟨rfl, ha⟩ := List.append_inj' hactions rfl
      exact .inl ⟨List.singleton_inj.1 ha, hok⟩
    · rw [List.concat_eq_append, ← List.cons_append, ← List.append_assoc] at hactions
      obtain ⟨rfl, ha⟩ := List.append_inj' hactions rfl
      cases ha
      refine .inr ⟨⟨before, m, rfl, hok, fun l b r hm => ?_⟩, hafter m a [] (by simp)⟩
      exact hafter l b (r ++ [a]) (by simp [hm])
  · rintro (⟨rfl, hok⟩ | ⟨⟨before, after, rfl, hok, hafter⟩, ha⟩)
    · exact ⟨actions, [], rfl, hok, fun l b r h => by simp at h⟩
    · refine ⟨before, after ++ [a], by simp, hok, fun l b r hlr => ?_⟩
      rcases List.eq_nil_or_concat r with rfl | ⟨m, c, rfl⟩
      · obtain ⟨rfl, hb⟩ := List.append_inj' hlr rfl
        cases hb
        exact ha
      · rw [List.concat_eq_append, ← List.cons_append, ← List.append_assoc] at hlr
        obtain ⟨rfl, -⟩ := List.append_inj' hlr rfl
        exact hafter l b m rfl

theorem destinations_of_step? {w' : Writer} {now : Nat} (h : w.step? net now = some w') :
    w'.destinations = w.destinations := by
  cases move_of_step? h <;> rfl

/-- What an action does to the entry of a name. -/
theorem get?_act (net : Network) (s : Session) (a : Action) (name : String) :
    (∃ options d, a = .register name options ∧ Destination.of name options net.readUrl = .ok d ∧
      (s.act net a).writer.destinations.get? name = some d) ∨
    (a = .deregister name ∧ s.Alters net name a ∧
      (s.act net a).writer.destinations.get? name = none) ∨
    (¬s.Alters net name a ∧
      (s.act net a).writer.destinations.get? name = s.writer.destinations.get? name) := by
  cases a with
  | write now samples =>
    refine .inr (.inr ⟨id, ?_⟩)
    simp only [Session.act, Session.write]
    rcases s.writer.writeSamples_cases now samples with ⟨-, hw⟩ | ⟨-, q, -, -, hw⟩ | ⟨-, hw⟩ <;>
      rw [hw]
  | register n options =>
    simp only [Session.act, Session.Alters]
    cases hd : Destination.of n options net.readUrl with
    | ok d =>
      rw [register_of_ok hd]
      by_cases hn : n = name
      · subst hn
        exact .inl ⟨options, d, rfl, hd, Table.get?_insert_self ..⟩
      · exact .inr (.inr ⟨fun h => hn h.1, (Table.get?_insert ..).trans (if_neg (Ne.symm hn))⟩)
    | error e =>
      have herror : (s.writer.register n options net.readUrl).1 = .error e := by
        unfold register
        rw [hd]
      rw [register_of_error herror, herror]
      exact .inr (.inr ⟨(fun h => by cases h.2), rfl⟩)
  | deregister n =>
    simp only [Session.act, Session.Alters]
    cases hd : s.writer.destinations.get? n with
    | some d =>
      rw [deregister_of_some hd]
      by_cases hn : n = name
      · subst hn
        exact .inr (.inl ⟨rfl, ⟨rfl, rfl⟩, Table.get?_erase_self ..⟩)
      · exact .inr (.inr ⟨fun h => hn h.1, (Table.get?_erase ..).trans (if_neg (Ne.symm hn))⟩)
    | none =>
      rw [deregister_of_none hd]
      exact .inr (.inr ⟨(fun h => by cases h.2), rfl⟩)
  | close => exact .inr (.inr ⟨id, rfl⟩)
  | send series => exact .inr (.inr ⟨id, rfl⟩)
  | sent =>
    refine .inr (.inr ⟨id, ?_⟩)
    simp only [Session.act]
    split <;> rfl
  | drain now =>
    refine .inr (.inr ⟨id, ?_⟩)
    simp only [Session.act]
    split
    · next w hw => rw [Session.moved_writer, destinations_of_step? hw]
    · rfl

/-- Every destination is made of its name and options. -/
theorem madeOf_get?_run {d : Destination}
    (h : ((Session.start settings).run net actions).writer.destinations.get? name = some d) :
    d.MadeOf net.readUrl name d.options := by
  induction actions using List.reverseRecOn generalizing d with
  | nil => cases h
  | append_singleton l a ih =>
    rw [run_concat] at h
    rcases get?_act net (Session.run net (.start settings) l) a name with
      ⟨options, d', -, hd, hget⟩ | ⟨-, -, hget⟩ | ⟨-, hget⟩
    · rw [hget] at h
      cases h
      have hmade := Destination.of_eq_ok hd
      exact hmade.given ▸ hmade
    · rw [hget] at h
      cases h
    · exact ih (hget ▸ h)

/-- The table has the options that stand, whatever else has been asked of the writer. -/
theorem get?_run_iff :
    (((Session.start settings).run net actions).writer.destinations.get? name).map
        Destination.options = some options ↔
      Standing net (.start settings) actions name options := by
  induction actions using List.reverseRecOn with
  | nil =>
    refine iff_of_false (fun h => by cases h) ?_
    rintro ⟨before, after, h, -⟩
    simp at h
  | append_singleton l a ih =>
    rw [run_concat, standing_append_singleton]
    rcases get?_act net (Session.run net (.start settings) l) a name with
      ⟨given, d, rfl, hd, hget⟩ | ⟨rfl, halters, hget⟩ | ⟨hkeeps, hget⟩
    · have halters : (Session.run net (.start settings) l).Alters net name (.register name given) :=
        ⟨rfl, by rw [register_of_ok hd]⟩
      rw [hget, Option.map_some, (Destination.of_eq_ok hd).given]
      constructor
      · rintro ⟨⟩
        exact .inl ⟨rfl, halters.2⟩
      · rintro (⟨h, -⟩ | ⟨-, hkeeps⟩)
        · cases h
          rfl
        · exact absurd halters hkeeps
    · rw [hget]
      refine iff_of_false (fun h => by cases h) ?_
      rintro (⟨h, -⟩ | ⟨-, hkeeps⟩)
      · cases h
      · exact hkeeps halters
    · rw [hget, ih]
      refine ⟨fun h => .inr ⟨h, hkeeps⟩, ?_⟩
      rintro (⟨rfl, hok⟩ | ⟨h, -⟩)
      · exact absurd ⟨rfl, hok⟩ hkeeps
      · exact h

/-! ## Fan-outs to what stands -/

/-- A fan-out is begun for the destinations that are registered. -/
theorem begun_act (net : Network) (s : Session) (a : Action) :
    ∃ new, (s.act net a).log = s.log ++ new ∧
      ∀ c, .begun c ∈ new → c.destinations = s.writer.destinations := by
  cases a with
  | write now samples => exact ⟨_, rfl, by simp⟩
  | register | deregister => exact ⟨[], by simp [Session.act], by simp⟩
  | close => exact ⟨_, rfl, by simp⟩
  | send series => exact ⟨_, rfl, by simp⟩
  | sent =>
    simp only [Session.act]
    split
    · exact ⟨[], by simp, by simp⟩
    · exact ⟨_, rfl, by simp⟩
  | drain now =>
    simp only [Session.act]
    split
    · unfold Session.moved
      split
      · exact ⟨_, rfl, by simp⟩
      · refine ⟨_, rfl, fun c hc => ?_⟩
        split at hc <;> simp at hc
      · exact ⟨[], by simp, by simp⟩
    · exact ⟨[], by simp, by simp⟩

/-- A batch is sent once to every name with standing options and to no other name, in a request that the
destination of these options makes of it. -/
structure Sending.Follows (c : Sending) (net : Network) (settings : WriterSettings)
    (actions : List Action) : Prop where
  once : ((c.fanOut net).deliveries.map Delivery.destination).Nodup
  all : c.batch ≠ [] → ∀ name options, Standing net (.start settings) actions name options →
    name ∈ (c.fanOut net).deliveries.map Delivery.destination
  standing : ∀ x ∈ (c.fanOut net).deliveries, ∃ options d,
    Standing net (.start settings) actions x.destination options ∧
    d.MadeOf net.readUrl x.destination options ∧ x.Attempts d net c.number c.batch

theorem follows_of_destinations {c : Sending} (h : c.destinations =
    ((Session.start settings).run net actions).writer.destinations) :
    c.Follows net settings actions := by
  by_cases hb : c.batch = []
  · have hnone : (c.fanOut net).deliveries = [] := FanOut.deliveries_begin_eq_nil (.inl hb)
    exact ⟨by simp [hnone], fun hne => absurd hb hne, by simp [hnone]⟩
  · have hnames : (c.fanOut net).deliveries.map Delivery.destination = c.destinations.keys :=
      FanOut.map_destination_begin hb
    refine ⟨hnames ▸ c.destinations.nodup_keys, fun _ name options hs => ?_, fun x hx => ?_⟩
    · obtain ⟨d, hd, -⟩ := Option.map_eq_some_iff.1 (get?_run_iff.2 hs)
      rw [hnames, h]
      exact Table.mem_keys_of_get? hd
    · obtain ⟨d, hd, hend⟩ := (FanOut.mem_begin hb).1 hx
      rw [h] at hd
      exact ⟨d.options, d, get?_run_iff.1 (by rw [hd]; rfl), madeOf_get?_run hd, hend⟩

/-- After any run a name has the options that stand for it. A register succeeds if its options are well
formed, and fails without a trace; so does a deregister of an unknown name. A fan-out that begins next
is sent with the standing options, and a run without its rejected registers is the same run. -/
theorem destinations_stand (net : Network) (settings : WriterSettings) (actions : List Action) :
    let s := (Session.start settings).run net actions
    (∀ name options, (s.writer.destinations.get? name).map Destination.options = some options ↔
      Standing net (.start settings) actions name options) ∧
    s.writer.destinations.keys.Nodup ∧
    (∀ name options, (s.writer.register name options net.readUrl).1 = .ok () ↔
      options.WellFormed net.readUrl) ∧
    (∀ name options e, (s.writer.register name options net.readUrl).1 = .error e →
      (s.writer.register name options net.readUrl).2 = s.writer) ∧
    (∀ name, s.writer.destinations.get? name = none →
      s.writer.deregister name = (.error (.notRegistered .destination name), s.writer)) ∧
    (∀ name, (s.writer.destinations.get? name).isSome = true →
      (s.writer.deregister name).1 = .ok ()) ∧
    (∀ a, ∃ new, (s.act net a).log = s.log ++ new ∧
      ∀ c, .begun c ∈ new → c.Follows net settings actions) ∧
    (Session.start settings).run net ((Session.start settings).accepted net actions) = s := by
  intro s
  refine ⟨fun name options => get?_run_iff, s.writer.destinations.nodup_keys,
    fun name options => register_ok_iff, fun name options e => register_of_error,
    fun name => deregister_of_none, fun name hname => ?_, fun a => ?_, run_accepted⟩
  · obtain ⟨d, hd⟩ := Option.isSome_iff_exists.1 hname
    rw [deregister_of_some hd]
  · obtain ⟨new, hlog, hnew⟩ := begun_act net s a
    exact ⟨new, hlog, fun c hc => follows_of_destinations (hnew c hc)⟩

/-- A register, then one of the same name whose header has no value, and a deregister of another
name. -/
def mistaken : List Action :=
  [.register "a" { url := "http://127.0.0.1/" },
    .register "a" { url := "http://127.0.0.2/", headers := ["x-team"] }, .deregister "b"]

theorem mistaken_keeps_first :
    Standing .unreachable (.start {}) mistaken "a" { url := "http://127.0.0.1/" } ∧
      ((Session.start {}).accepted .unreachable mistaken).length = 2 ∧
      ¬({ url := "http://127.0.0.2/", headers := ["x-team"] } : DestinationOptions).WellFormed
        Url.parse := by
  obtain ⟨hstanding, -, hok, -⟩ := destinations_stand .unreachable {} mistaken
  refine ⟨(hstanding _ _).1 (by decide +kernel), by decide +kernel, fun hwell => ?_⟩
  have herror : (((Session.start {}).run .unreachable mistaken).writer.register "a"
      { url := "http://127.0.0.2/", headers := ["x-team"] }
      Network.unreachable.readUrl).1.isOk = false := by decide +kernel
  rw [(hok "a" _).2 hwell] at herror
  cases herror

end Writer

end MetricRelay
