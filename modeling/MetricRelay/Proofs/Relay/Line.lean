import MetricRelay.Proofs.Relay.Chronicle

/-!
# In line for a collector

As long as the host asks for monitors only, the collector of a model is used by the rounds of the model
and by the host that is to configure it, and by one of them at a time. `Turn` lists who can have it and
who can be in line; `Turn.laneStep` is what a round of the model makes of that, `Turn.congr` says that
nobody else matters. A round that begins is the next to move (`prompt`), so that it finds the collector
free unless the host is in line for it.
-/

namespace MetricRelay

open Schedule

namespace Round

/-- The registration whose collector a round has, or is in line for. -/
def registration? : Round → Option Nat
  | .beginning => none
  | .inLine n | .gathering n _ | .sleeping n _ _ => some n

/-- Whether the observation has begun. -/
def observes : Round → Bool
  | .beginning | .inLine _ => false
  | .gathering .. | .sleeping .. => true

end Round

namespace Relay

variable {σ : Type} {r r' q q' : Relay σ} {s : Surroundings} {name other : String} {n k : Nat}

/-! ## Locks of a registration -/

def locksOf (r : Relay σ) (n : Nat) : List Lock := r.locks.filter fun l => l.registration = n

theorem locksOf_eq_nil :
    r.locksOf n = [] ↔ ¬(r.locks.any fun l => l.registration = n) = true := by
  simp [locksOf]

theorem holds_iff {u : User} :
    r.holds n u = true ↔ ∃ l ∈ r.locksOf n, l.holder = u := by
  simp [holds, locksOf, and_assoc]

theorem nextInLine_eq (r : Relay σ) (n : Nat) :
    r.nextInLine n = (r.locksOf n).head?.bind fun l => l.line.head? := by
  unfold nextInLine locksOf
  rw [List.head?_filter]

/-- The locks of one registration are changed. -/
theorem locksOf_map {f : Lock → Lock} (hf : ∀ l, (f l).registration = l.registration)
    (h : r'.locks = r.locks.map fun l => if l.registration = n then f l else l) (k : Nat) :
    r'.locksOf k = if k = n then (r.locksOf n).map f else r.locksOf k := by
  have hkept : ((fun l : Lock => decide (l.registration = k)) ∘
      fun l => if l.registration = n then f l else l) = fun l => decide (l.registration = k) := by
    funext l
    simp only [Function.comp]
    split
    · rw [hf]
    · rfl
  unfold locksOf
  rw [h, List.filter_map, hkept]
  split
  · next hk =>
    subst hk
    refine List.map_congr_left fun l hl => ?_
    rw [if_pos (of_decide_eq_true (List.mem_filter.1 hl).2)]
  · next hk =>
    conv_rhs => rw [← List.map_id (r.locks.filter _)]
    refine List.map_congr_left fun l hl => ?_
    rw [if_neg (of_decide_eq_true (List.mem_filter.1 hl).2 ▸ hk)]
    rfl

theorem acquire_of_nil (h : r.locksOf n = []) (u : User) :
    r.acquire n u = (true, { r with locks := r.locks ++ [⟨n, u, []⟩] }) := by
  unfold acquire
  rw [if_neg (locksOf_eq_nil.1 h)]

theorem acquire_of_ne_nil (h : r.locksOf n ≠ []) (u : User) :
    r.acquire n u = (false, { r with locks := r.locks.map fun l =>
      if l.registration = n then { l with line := l.line ++ [u] } else l }) := by
  unfold acquire
  rw [if_pos (not_not.1 fun hfree => h (locksOf_eq_nil.2 hfree))]

theorem locksOf_acquire_of_nil (h : r.locksOf n = []) (u : User) :
    (r.acquire n u).2.locksOf n = [⟨n, u, []⟩] := by
  have hfree : r.locks.filter (fun l => decide (l.registration = n)) = [] := h
  rw [acquire_of_nil h]
  show (r.locks ++ [(⟨n, u, []⟩ : Lock)]).filter _ = _
  rw [List.filter_append, hfree]
  simp

theorem locksOf_acquire_of_cons {v : User} {line : List User} (h : r.locksOf n = [⟨n, v, line⟩])
    (u : User) : (r.acquire n u).2.locksOf n = [⟨n, v, line ++ [u]⟩] := by
  have htaken : r.locksOf n ≠ [] := by simp [h]
  rw [acquire_of_ne_nil htaken, locksOf_map (f := fun l => { l with line := l.line ++ [u] })
    (fun _ => rfl) rfl, if_pos rfl, h]
  rfl

theorem locksOf_acquire_of_ne (hne : k ≠ n) (u : User) :
    (r.acquire k u).2.locksOf n = r.locksOf n := by
  by_cases h : r.locksOf k = []
  · rw [acquire_of_nil h]
    show (r.locks ++ [(⟨k, u, []⟩ : Lock)]).filter _ = _
    rw [List.filter_append, List.filter_cons_of_neg (by simpa using hne)]
    simp [locksOf]
  · rw [acquire_of_ne_nil h, locksOf_map (f := fun l => { l with line := l.line ++ [u] })
      (fun _ => rfl) rfl, if_neg hne.symm]

theorem release_of_none (h : r.nextInLine n = none) :
    r.release n = { r with locks := r.locks.filter fun l => l.registration ≠ n } := by
  unfold release
  rw [h]

theorem locks_release_of_some {u : User} (h : r.nextInLine n = some u) :
    (r.release n).locks = r.locks.map fun l =>
      if l.registration = n then { l with holder := u, line := l.line.drop 1 } else l := by
  unfold release
  rw [h]
  cases u <;> rfl

/-- Nobody is in line, so that the collector is free. -/
theorem locksOf_release_last {u : User} (h : r.locksOf n = [⟨n, u, []⟩]) :
    (r.release n).locksOf n = [] := by
  have hnext : r.nextInLine n = none := by
    rw [nextInLine_eq, h]
    rfl
  rw [release_of_none hnext]
  simp [locksOf, List.filter_filter]

theorem locksOf_release_next {u v : User} {line : List User}
    (h : r.locksOf n = [⟨n, u, v :: line⟩]) : (r.release n).locksOf n = [⟨n, v, line⟩] := by
  have hnext : r.nextInLine n = some v := by
    rw [nextInLine_eq, h]
    rfl
  rw [locksOf_map (f := fun l => { l with holder := v, line := l.line.drop 1 }) (fun _ => rfl)
    (locks_release_of_some hnext), if_pos rfl, h]
  rfl

theorem locksOf_release_of_ne (hne : k ≠ n) : (r.release k).locksOf n = r.locksOf n := by
  cases hnext : r.nextInLine k with
  | none =>
    rw [release_of_none hnext]
    unfold locksOf
    rw [List.filter_filter]
    refine List.filter_congr fun l _ => ?_
    by_cases hl : l.registration = n
    · simp [hl, hne.symm]
    · simp [hl]
  | some u =>
    rw [locksOf_map (f := fun l => { l with holder := u, line := l.line.drop 1 }) (fun _ => rfl)
      (locks_release_of_some hnext), if_neg hne.symm]

/-! ## Where a round is -/

/-- The point that the round of a name has come to. -/
def round? (r : Relay σ) (name : String) : Option Round := (r.serving? name).map Serving.round

/-- Whether the round of a name is in its observation. -/
def observes (r : Relay σ) (name : String) : Bool := (r.round? name).any Round.observes

/-- A round that neither has a collector nor is in line for one, or none at all. -/
def Outside (r : Relay σ) (name : String) : Prop :=
  r.round? name = none ∨ r.round? name = some .beginning

theorem round?_eq_some {round : Round} (h : r.round? name = some round) :
    ∃ labels next, r.serving? name = some ⟨labels, next, round⟩ := by
  obtain ⟨⟨labels, next, _⟩, hserving, rfl⟩ := Option.map_eq_some_iff.1 h
  exact ⟨labels, next, hserving⟩

theorem round?_of_serving {sv : Serving} (h : r.serving? name = some sv) :
    r.round? name = some sv.round := by
  rw [round?, h, Option.map_some]

theorem round?_eq_none : r.round? name = none ↔ r.serving? name = none := by
  simp [round?]

theorem round?_congr (h : r'.serving? name = r.serving? name) :
    r'.round? name = r.round? name := by
  rw [round?, round?, h]

theorem Outside.congr (h : r.Outside name) (hr : r'.round? name = r.round? name) :
    r'.Outside name := by
  unfold Outside
  rw [hr]
  exact h

theorem Outside.eq_beginning {round : Round} (h : r.Outside name) (hr : r.round? name = some round) :
    round = .beginning := by
  rcases h with h | h
  · cases h.symm.trans hr
  · cases h.symm.trans hr
    rfl

theorem Outside.not_observes (h : r.Outside name) : r.observes name = false := by
  unfold observes
  rcases h with h | h
  · rw [h]
    rfl
  · rw [h]
    rfl

section

variable {lane l : Lane Labels Round} {p : Plan Labels} {next : Nat} {round : Round}

theorem round?_setRound (h : r.scheduler.lane? name = some l) :
    (r.setRound name lane p next round).round? name = some round :=
  round?_of_serving (serving?_setRound h ..)

theorem round?_completeRound (h : r.scheduler.lane? name = some l) :
    (r.completeRound s name lane p next).round? name = none :=
  round?_eq_none.2 (serving?_completeRound h)

theorem locksOf_completeRound (r : Relay σ) (s : Surroundings) (name : String)
    (lane : Lane Labels Round) (p : Plan Labels) (next n : Nat) :
    (r.completeRound s name lane p next).locksOf n = r.locksOf n := by
  unfold completeRound forward locksOf
  split <;> rfl

end

variable [Collector σ]

section

variable {lane : Lane Labels Round} {p : Plan Labels} {next : Nat} {round : Round} {m : Model σ}

theorem locksOf_beginObservation (hm : r.registry.models.get? name = some m) :
    (r.beginObservation s name lane p next k).locksOf n = r.locksOf n := by
  unfold beginObservation Registry.beginGather Registry.withModel
  rw [hm]
  rfl

theorem locksOf_beginObservation_of_ne (hne : k ≠ n) :
    (r.beginObservation s name lane p next k).locksOf n = r.locksOf n := by
  unfold beginObservation
  split
  · exact (locksOf_completeRound (r.release k) s name lane p next n).trans
      (locksOf_release_of_ne hne)
  · rfl

/-- Other registrations are nothing to a round. -/
theorem locksOf_roundStep_of_ne
    (hm : ∀ m, r.registry.models.get? name = some m → m.registration ≠ n)
    (hround : round.registration? ≠ some n) :
    (r.roundStep s name lane p next round).locksOf n = r.locksOf n := by
  have hne : ∀ k, round.registration? = some k → k ≠ n := by
    rintro k hk rfl
    exact hround hk
  cases round with
  | beginning =>
    unfold roundStep
    cases hmodel : r.registry.models.get? name with
    | none => exact locksOf_completeRound r s name lane p next n
    | some m =>
      have hacquire := locksOf_acquire_of_ne (r := r) (hm m hmodel) (.agent (.lane name))
      simp only
      split
      · next q heq =>
        rw [heq] at hacquire
        exact (locksOf_beginObservation_of_ne (hm m hmodel)).trans hacquire
      · next q heq =>
        rw [heq] at hacquire
        exact hacquire
  | inLine k =>
    unfold roundStep
    simp only
    split
    · exact locksOf_beginObservation_of_ne (hne k rfl)
    · rfl
  | gathering k g =>
    obtain ⟨_ | ⟨_ | d, more⟩, outcome⟩ := g
    · exact (locksOf_completeRound (r.release k) s name lane p next n).trans
        (locksOf_release_of_ne (hne k rfl))
    · rfl
    · unfold roundStep
      simp only
      split <;> rfl
  | sleeping k wake g =>
    unfold roundStep
    simp only
    split <;> rfl

end

/-! ## Moves of a round, and its line -/

section

variable {labels : Labels} {next : Nat} {round : Round} {m : Model σ}

theorem locksOf_laneStep_of_ne
    (hm : ∀ m, q.registry.models.get? name = some m → m.registration ≠ n)
    (hround : ∀ round, q.round? name = some round → round.registration? ≠ some n) :
    (q.laneStep s name).locksOf n = q.locksOf n := by
  cases hq : q.serving? name with
  | none => exact congrArg _ (laneStep_between hq).2.1
  | some sv =>
    obtain ⟨lane, p, hl, hc, -⟩ := serving?_eq_some.1 hq
    rw [laneStep_eq_roundStep hl hc]
    exact locksOf_roundStep_of_ne hm (hround _ (round?_of_serving hq))

/-- A round that finds its collector free begins the observation. -/
theorem laneStep_of_free (hm : q.registry.models.get? name = some m)
    (hq : q.serving? name = some ⟨labels, next, .beginning⟩) (hfree : q.locksOf m.registration = []) :
    (q.laneStep s name).locksOf m.registration = [⟨m.registration, .agent (.lane name), []⟩] ∧
      ∃ g, (q.laneStep s name).round? name = some (.gathering m.registration g) := by
  obtain ⟨-, hbegins, -⟩ := awaiting_laneStep (s := s) (.inl rfl) hq hm
  refine ⟨?_, _, round?_of_serving (hbegins (locksOf_eq_nil.1 hfree)).serving⟩
  obtain ⟨lane, p, hl, hc, -⟩ := serving?_eq_some.1 hq
  have hacquired := locksOf_acquire_of_nil hfree (.agent (.lane name))
  rw [laneStep_eq_roundStep hl hc]
  unfold roundStep
  rw [acquire_of_nil hfree] at hacquired
  simp only [hm, acquire_of_nil hfree]
  exact (locksOf_beginObservation (r := { q with
    locks := q.locks ++ [⟨m.registration, .agent (.lane name), []⟩] }) hm).trans hacquired

theorem laneStep_of_taken {u : User} {line : List User} (hm : q.registry.models.get? name = some m)
    (hq : q.serving? name = some ⟨labels, next, .beginning⟩)
    (htaken : q.locksOf m.registration = [⟨m.registration, u, line⟩]) :
    (q.laneStep s name).locksOf m.registration =
        [⟨m.registration, u, line ++ [.agent (.lane name)]⟩] ∧
      (q.laneStep s name).round? name = some (.inLine m.registration) := by
  obtain ⟨lane, p, hl, hc, -⟩ := serving?_eq_some.1 hq
  have hne : q.locksOf m.registration ≠ [] := by simp [htaken]
  have hacquired := locksOf_acquire_of_cons htaken (.agent (.lane name))
  rw [laneStep_eq_roundStep hl hc]
  unfold roundStep
  rw [acquire_of_ne_nil hne] at hacquired
  simp only [hm, acquire_of_ne_nil hne]
  exact ⟨hacquired, round?_setRound (l := lane) hl⟩

/-- The collector has been handed to the round in line. -/
theorem laneStep_of_holds (hm : q.registry.models.get? name = some m)
    (hq : q.serving? name = some ⟨labels, next, .inLine m.registration⟩)
    (hholds : q.holds m.registration (.agent (.lane name)) = true) :
    (q.laneStep s name).locksOf m.registration = q.locksOf m.registration ∧
      ∃ g, (q.laneStep s name).round? name = some (.gathering m.registration g) := by
  obtain ⟨-, hbegins, -⟩ := awaiting_laneStep (s := s) (.inr rfl) hq hm
  refine ⟨?_, _, round?_of_serving (hbegins hholds).serving⟩
  obtain ⟨lane, p, hl, hc, -⟩ := serving?_eq_some.1 hq
  rw [laneStep_eq_roundStep hl hc]
  unfold roundStep
  simp only [if_pos hholds]
  exact locksOf_beginObservation hm

theorem laneStep_of_inLine (hq : q.serving? name = some ⟨labels, next, .inLine n⟩)
    (hholds : ¬q.holds n (.agent (.lane name)) = true) : q.laneStep s name = q := by
  obtain ⟨lane, p, hl, hc, -⟩ := serving?_eq_some.1 hq
  rw [laneStep_eq_roundStep hl hc]
  unfold roundStep
  simp only [if_neg hholds]

/-- An observation goes on, or it ends and the collector goes to the next in line. -/
theorem laneStep_of_observes (hq : q.serving? name = some ⟨labels, next, round⟩)
    (hround : round.observes = true) (hn : round.registration? = some n) :
    ((q.laneStep s name).locksOf n = q.locksOf n ∧ ∃ round',
      (q.laneStep s name).round? name = some round' ∧ round'.observes = true ∧
        round'.registration? = some n) ∨
    (q.laneStep s name).locksOf n = (q.release n).locksOf n ∧
      (q.laneStep s name).round? name = none := by
  obtain ⟨lane, p, hl, hc, -⟩ := serving?_eq_some.1 hq
  rw [laneStep_eq_roundStep hl hc]
  cases round with
  | beginning | inLine => cases hround
  | gathering k g =>
    cases hn
    obtain ⟨_ | ⟨_ | d, more⟩, outcome⟩ := g
    · refine .inr ⟨locksOf_completeRound (q.release n) s name lane p next n, ?_⟩
      exact round?_completeRound (l := lane) ((idle_release q n).scheduler ▸ hl)
    · exact .inl ⟨rfl, _, round?_setRound (l := lane) hl, rfl, rfl⟩
    · unfold roundStep
      simp only
      split <;> exact .inl ⟨rfl, _, round?_setRound (l := lane) hl, rfl, rfl⟩
  | sleeping k wake g =>
    cases hn
    unfold roundStep
    simp only
    split
    · exact .inl ⟨rfl, _, round?_setRound (l := lane) hl, rfl, rfl⟩
    · exact .inl ⟨rfl, _, round?_of_serving hq, rfl, rfl⟩

/-- A round that has the collector observes, up to its end. -/
theorem laneStep_of_has {line : List User} (hm : q.registry.models.get? name = some m)
    (hq : q.round? name = some round) (hn : round.registration? = some m.registration)
    (hhas : q.locksOf m.registration = [⟨m.registration, .agent (.lane name), line⟩]) :
    ((q.laneStep s name).locksOf m.registration = q.locksOf m.registration ∧ ∃ round',
      (q.laneStep s name).round? name = some round' ∧ round'.observes = true ∧
        round'.registration? = some m.registration) ∨
    (q.laneStep s name).locksOf m.registration = (q.release m.registration).locksOf m.registration ∧
      (q.laneStep s name).round? name = none := by
  obtain ⟨labels, next, hserving⟩ := round?_eq_some hq
  cases round with
  | beginning => cases hn
  | inLine n =>
    cases hn
    have hholds : q.holds m.registration (.agent (.lane name)) = true :=
      holds_iff.2 ⟨⟨m.registration, .agent (.lane name), line⟩, by simp [hhas], rfl⟩
    obtain ⟨hlocks, g, hround⟩ := laneStep_of_holds (s := s) hm hserving hholds
    exact .inl ⟨hlocks, _, hround, rfl, rfl⟩
  | gathering => exact laneStep_of_observes hserving rfl hn
  | sleeping => exact laneStep_of_observes hserving rfl hn

theorem between_laneStep (hq : q.round? name = none) :
    (q.laneStep s name).locksOf n = q.locksOf n ∧ (q.laneStep s name).Outside name := by
  obtain ⟨-, hlocks, hserving | ⟨labels, next, hserving⟩⟩ :=
    laneStep_between (s := s) (round?_eq_none.1 hq)
  · exact ⟨congrArg _ hlocks, .inl (round?_eq_none.2 hserving)⟩
  · exact ⟨congrArg _ hlocks, .inr (round?_of_serving hserving)⟩

end

/-! ## Who has a collector -/

/-- Nobody but the rounds of a model and the host uses its collector: the line is of one at most, and
who is in it waits for the other. -/
inductive Turn (name : String) (n : Nat) (q : Relay σ) : Prop where
  | free : q.locksOf n = [] → q.Outside name → (∀ spec, q.call ≠ .configuring spec n) →
      Turn name n q
  /-- The round has the collector, or it has been handed to the round. -/
  | taken {round : Round} : q.locksOf n = [⟨n, .agent (.lane name), []⟩] →
      q.round? name = some round → round.registration? = some n →
      (∀ spec, q.call ≠ .configuring spec n) → Turn name n q
  | awaited {round : Round} {spec : MonitorSpec} :
      q.locksOf n = [⟨n, .agent (.lane name), [.host]⟩] → q.round? name = some round →
      round.registration? = some n → q.call = .configuring spec n → Turn name n q
  /-- The collector has been handed to the host. -/
  | handed {spec : MonitorSpec} : q.locksOf n = [⟨n, .host, []⟩] → q.Outside name →
      q.call = .configuring spec n → Turn name n q
  | contended {spec : MonitorSpec} : q.locksOf n = [⟨n, .host, [.agent (.lane name)]⟩] →
      q.round? name = some (.inLine n) → q.call = .configuring spec n → Turn name n q

omit [Collector σ] in
theorem Turn.congr (h : Turn name n q) (hl : q'.locksOf n = q.locksOf n)
    (hr : q'.round? name = q.round? name)
    (hc : ∀ spec, q'.call = .configuring spec n ↔ q.call = .configuring spec n) :
    Turn name n q' := by
  cases h with
  | free hlocks hround hcall =>
    exact .free (hl.trans hlocks) (hround.congr hr) fun spec h => hcall spec ((hc spec).1 h)
  | taken hlocks hround hn hcall =>
    exact .taken (hl.trans hlocks) (hr.trans hround) hn fun spec h => hcall spec ((hc spec).1 h)
  | awaited hlocks hround hn hcall =>
    exact .awaited (hl.trans hlocks) (hr.trans hround) hn ((hc _).2 hcall)
  | handed hlocks hround hcall => exact .handed (hl.trans hlocks) (hround.congr hr) ((hc _).2 hcall)
  | contended hlocks hround hcall =>
    exact .contended (hl.trans hlocks) (hr.trans hround) ((hc _).2 hcall)

omit [Collector σ] in
/-- A round has no other collector than that of its model, nor is it in line for another. -/
theorem Turn.registration {round : Round} (h : Turn name n q) (hr : q.round? name = some round) :
    round = .beginning ∨ round.registration? = some n := by
  cases h with
  | free _ hround _ | handed _ hround _ => exact .inl (hround.eq_beginning hr)
  | taken _ hround hn _ | awaited _ hround hn _ =>
    cases hround.symm.trans hr
    exact .inr hn
  | contended _ hround _ =>
    cases hround.symm.trans hr
    exact .inr rfl

omit [Collector σ] in
theorem ne_beginning {round : Round} (h : round.observes = true) : some round ≠ some .beginning := by
  rintro ⟨⟩
  cases h

theorem call_laneStep (q : Relay σ) (s : Surroundings) (name : String) :
    (q.laneStep s name).call = q.call := (local_laneStep q s name).call

/-- A round that has the collector keeps it up to its end. -/
theorem Turn.laneStep {m : Model σ} (hm : q.registry.models.get? name = some m)
    (h : Turn name m.registration q) : Turn name m.registration (q.laneStep s name) ∧
      (q.round? name ≠ none → (q.laneStep s name).round? name ≠ some .beginning) := by
  have hcall := call_laneStep q s name
  have hnever : (∀ spec, q.call ≠ .configuring spec m.registration) →
      ∀ spec, (q.laneStep s name).call ≠ .configuring spec m.registration := fun h => hcall ▸ h
  cases h with
  | free hlocks hround hfree =>
    rcases hround with hround | hround
    · obtain ⟨hl, hr⟩ := between_laneStep (s := s) (n := m.registration) hround
      exact ⟨.free (hl.trans hlocks) hr (hnever hfree), fun hne => absurd hround hne⟩
    · obtain ⟨labels, next, hq⟩ := round?_eq_some hround
      obtain ⟨hl, g, hr⟩ := laneStep_of_free (s := s) hm hq hlocks
      exact ⟨.taken hl hr rfl (hnever hfree), fun _ => by simp [hr]⟩
  | taken hlocks hround hn hfree =>
    rcases laneStep_of_has (s := s) hm hround hn hlocks with ⟨hl, round', hr, hobs, hn'⟩ | ⟨hl, hr⟩
    · exact ⟨.taken (hl.trans hlocks) hr hn' (hnever hfree), fun _ => hr ▸ ne_beginning hobs⟩
    · exact ⟨.free (hl.trans (locksOf_release_last hlocks)) (.inl hr) (hnever hfree),
        fun _ => by simp [hr]⟩
  | awaited hlocks hround hn hconf =>
    rcases laneStep_of_has (s := s) hm hround hn hlocks with ⟨hl, round', hr, hobs, hn'⟩ | ⟨hl, hr⟩
    · exact ⟨.awaited (hl.trans hlocks) hr hn' (hcall.trans hconf), fun _ => hr ▸ ne_beginning hobs⟩
    · exact ⟨.handed (hl.trans (locksOf_release_next hlocks)) (.inl hr) (hcall.trans hconf),
        fun _ => by simp [hr]⟩
  | handed hlocks hround hconf =>
    rcases hround with hround | hround
    · obtain ⟨hl, hr⟩ := between_laneStep (s := s) (n := m.registration) hround
      exact ⟨.handed (hl.trans hlocks) hr (hcall.trans hconf), fun hne => absurd hround hne⟩
    · obtain ⟨labels, next, hq⟩ := round?_eq_some hround
      obtain ⟨hl, hr⟩ := laneStep_of_taken (s := s) hm hq hlocks
      exact ⟨.contended hl hr (hcall.trans hconf), fun _ => by simp [hr]⟩
  | contended hlocks hround hconf =>
    obtain ⟨labels, next, hq⟩ := round?_eq_some hround
    have hothers : ¬q.holds m.registration (.agent (.lane name)) = true := by
      simp [holds_iff, hlocks]
    rw [laneStep_of_inLine (s := s) hq hothers]
    exact ⟨.contended hlocks hround hconf, fun _ => by simp [hround]⟩

end Relay

end MetricRelay
