import Mathlib.Data.List.Perm.Basic
import MetricRelay.Json.Decoder
import MetricRelay.Proofs.Json.Written

/-!
# Reading back what is written

`Reordered` is the same value with the members of its maps in another order. A decoder `Reads`
something from a value if it does so in every such order, wherever there is room for the depth of the
value. Texts, numbers and lists are read so, and a record is if its fields are (`reads_record`): its
members are followed in the order in which they stand, each of them once (`Holds`, `fold_members`).
-/

namespace MetricRelay.Json

/-! ## Members in another order -/

mutual

inductive Reordered : Value → Value → Prop where
  | null : Reordered .null .null
  | bool (b : Bool) : Reordered (.bool b) (.bool b)
  | number (n : Number) : Reordered (.number n) (.number n)
  | text (s : String) : Reordered (.text s) (.text s)
  | list {vs ws : List Value} : ReorderedItems vs ws → Reordered (.list vs) (.list ws)
  | map {ms ms' ns : List (String × Value)} : ReorderedMembers ms ms' → ns.Perm ms' →
      Reordered (.map ms) (.map ns)

inductive ReorderedItems : List Value → List Value → Prop where
  | nil : ReorderedItems [] []
  | cons {v w : Value} {vs ws : List Value} : Reordered v w → ReorderedItems vs ws →
      ReorderedItems (v :: vs) (w :: ws)

/-- The same names, each with its value reordered. -/
inductive ReorderedMembers : List (String × Value) → List (String × Value) → Prop where
  | nil : ReorderedMembers [] []
  | cons {v w : Value} {ms ns : List (String × Value)} (k : String) : Reordered v w →
      ReorderedMembers ms ns → ReorderedMembers ((k, v) :: ms) ((k, w) :: ns)

end

mutual

theorem Reordered.refl : ∀ v : Value, Reordered v v
  | .null => .null
  | .bool b => .bool b
  | .number n => .number n
  | .text s => .text s
  | .list items => .list (ReorderedItems.refl items)
  | .map members => .map (ReorderedMembers.refl members) (.refl members)

theorem ReorderedItems.refl : ∀ vs : List Value, ReorderedItems vs vs
  | [] => .nil
  | v :: r => .cons (Reordered.refl v) (ReorderedItems.refl r)

theorem ReorderedMembers.refl : ∀ ms : List (String × Value), ReorderedMembers ms ms
  | [] => .nil
  | (k, v) :: r => .cons k (Reordered.refl v) (ReorderedMembers.refl r)

end

variable {ms ns fields : List (String × Value)}

theorem ReorderedMembers.keys (h : ReorderedMembers ms ns) : ns.map Prod.fst = ms.map Prod.fst := by
  induction ms generalizing ns with
  | nil => cases h; rfl
  | cons m ms ih =>
    cases h with
    | cons k _ hrest => rw [List.map_cons, List.map_cons, ih hrest]

theorem ReorderedMembers.mem (h : ReorderedMembers ms ns) {k : String} {w : Value}
    (hm : (k, w) ∈ ns) : ∃ v, (k, v) ∈ ms ∧ Reordered v w := by
  induction ms generalizing ns with
  | nil => cases h; cases hm
  | cons m ms ih =>
    cases h with
    | @cons v _ _ _ _ hv hrest =>
      rcases List.mem_cons.1 hm with heq | hm
      · cases heq
        exact ⟨v, List.mem_cons_self, hv⟩
      · obtain ⟨v, hmem, hv⟩ := ih hrest hm
        exact ⟨v, List.mem_cons_of_mem _ hmem, hv⟩

/-- Members that hold the given fields in some order. -/
structure Holds (ns fields : List (String × Value)) : Prop where
  keys : (ns.map Prod.fst).Perm (fields.map Prod.fst)
  nodup : (fields.map Prod.fst).Nodup
  field {k : String} {w : Value} : (k, w) ∈ ns → ∃ v, (k, v) ∈ fields ∧ Reordered v w

theorem Holds.nodup_keys (h : Holds ns fields) : (ns.map Prod.fst).Nodup := h.keys.nodup_iff.2 h.nodup

theorem holds_of_reordered (hnodup : (fields.map Prod.fst).Nodup) {w : Value}
    (h : Reordered (.map fields) w) : ∃ ns, w = .map ns ∧ Holds ns fields := by
  cases h with
  | @map _ ms' ns hms hperm =>
    refine ⟨ns, rfl, ?_, hnodup, fun hm => hms.mem (hperm.mem_iff.1 hm)⟩
    rw [← hms.keys]
    exact hperm.map Prod.fst

/-- The members without the first field hold the other fields. -/
theorem Holds.others {k : String} {v : Value} (h : Holds ns ((k, v) :: fields)) :
    Holds (ns.filter fun m => m.1 ≠ k) fields := by
  obtain ⟨hnew, hnodup⟩ := List.nodup_cons.1 h.nodup
  have hkeys : (ns.filter fun m => m.1 ≠ k).map Prod.fst = (ns.map Prod.fst).filter (· ≠ k) := by
    rw [List.filter_map]
    rfl
  refine ⟨?_, hnodup, fun {j w} hm => ?_⟩
  · have hself : (fields.map Prod.fst).filter (· ≠ k) = fields.map Prod.fst := by
      refine List.filter_eq_self.2 fun j hj => decide_eq_true ?_
      rintro rfl
      exact hnew hj
    have hperm := h.keys.filter (· ≠ k)
    rwa [List.map_cons, List.filter_cons_of_neg (by simp), hself, ← hkeys] at hperm
  · obtain ⟨hmem, hne⟩ := List.mem_filter.1 hm
    obtain ⟨v', hfield, hv'⟩ := h.field hmem
    rcases List.mem_cons.1 hfield with heq | hfield
    · cases heq
      simp at hne
    · exact ⟨v', hfield, hv'⟩

/-! ## Lists and maps of a document -/

variable {α D : Type} {e : ListEnd}

theorem decode_itemNodesWith {d : Node → Except Fault α} (he : e.reading = .ok ()) {vs : List Value}
    {as : List α} (h : List.Forall₂ (fun v a => d (v.nodeWith e) = .ok a) vs as) :
    (itemNodesWith e vs).decode d = .ok as := by
  induction h with
  | nil => simp only [itemNodesWith, Items.decode, he]; rfl
  | cons hv _ ih => simp only [itemNodesWith, Items.decode, hv, ih]; rfl

/-- Members are followed one by one; `state` is what has been read once some of them are done. -/
theorem fold_members (step : D → String → Node → Except Fault D) (state : List (String × Value) → D)
    (hnodup : (ns.map Prod.fst).Nodup)
    (hstep : ∀ before, ∀ m ∈ ns, m.1 ∉ before.map Prod.fst →
      step (state before) m.1 (m.2.nodeWith e) = .ok (state (before ++ [m]))) :
    (memberNodesWith e ns).fold step (state []) = .ok (state ns) := by
  -- The members read before share no name with those that are left.
  have hrun : ∀ before, (∀ m ∈ ns, m.1 ∉ before.map Prod.fst) →
      (memberNodesWith e ns).fold step (state before) = .ok (state (before ++ ns)) := by
    induction ns with
    | nil =>
      intro before _
      rw [List.append_nil]
      rfl
    | cons m ns ih =>
      intro before hnew
      obtain ⟨hm, hnodup⟩ := List.nodup_cons.1 hnodup
      have hmore := ih hnodup (fun before m hm => hstep before m (List.mem_cons_of_mem _ hm))
        (before ++ [m]) fun m' hm' hmem => by
          rw [List.map_append, List.mem_append] at hmem
          rcases hmem with hmem | hmem
          · exact hnew m' (List.mem_cons_of_mem _ hm') hmem
          · rw [← List.mem_singleton.1 hmem] at hm
            exact hm (List.mem_map_of_mem hm')
      rw [List.append_assoc, List.singleton_append] at hmore
      simp only [memberNodesWith, Members.fold, Literal.ofText, bind, Except.bind,
        hstep before m List.mem_cons_self (hnew m List.mem_cons_self), hmore]
  exact hrun [] fun _ _ => List.not_mem_nil

/-! ## Decoders -/

/-- From the value, with its members in any order, that is read. -/
def Decoder.Reads (d : Decoder α) (depth : Nat) (v : Value) (a : α) : Prop :=
  ∀ w, Reordered v w → ∀ e : ListEnd, e.reading = .ok () → ∀ room, depth ≤ room →
    d room (w.nodeWith e) = .ok a

theorem reads_text (s : String) : Decoder.text.Reads 0 (.text s) s := by
  intro w hw e _ room _
  cases hw
  rfl

theorem reads_word (typeName : String) (n : UInt64) :
    (Decoder.word typeName).Reads 0 (.number (.natural n.toNat)) n := by
  intro w hw e _ room _
  cases hw
  simp only [Value.nodeWith, Decoder.word, Node.found, Except.map, bind, Except.bind,
    UInt64.ofNat_toNat]
  rfl

theorem reads_optional {d : Decoder α} {depth : Nat} {v : Value} {a : α} (hv : v ≠ .null)
    (h : d.Reads depth v a) : (Decoder.optional d).Reads depth v (some a) := by
  intro w hw e he room hroom
  have hread := h w hw e he room hroom
  cases hw with
  | null => exact absurd rfl hv
  | _ =>
    simp only [Value.nodeWith] at hread
    simp only [Value.nodeWith, Decoder.optional, hread]
    rfl

theorem reads_list {d : Decoder α} {depth : Nat} {f : α → Value} {as : List α}
    (h : ∀ a ∈ as, d.Reads depth (f a) a) :
    (Decoder.list d).Reads (depth + 1) (.list (as.map f)) as := by
  intro w hw e he room hroom
  cases hw with
  | @list _ ws hitems =>
    have hread : List.Forall₂ (fun w a => d (room - 1) (w.nodeWith e) = .ok a) ws as := by
      induction as generalizing ws with
      | nil => cases hitems; exact .nil
      | cons a as ih =>
        obtain ⟨ha, hmore⟩ := List.forall_mem_cons.1 h
        cases hitems with
        | cons hw hrest => exact .cons (ha _ hw e he _ (by omega)) (ih hmore hrest)
    simp only [Value.nodeWith, Decoder.list, descend]
    rw [if_neg (by omega), decode_itemNodesWith he hread]

/-- A map is read if its members are, in whatever order they stand. -/
theorem reads_map {d : Decoder α} {depth : Nat} {a : α} (hnodup : (fields.map Prod.fst).Nodup)
    (hread : ∀ ns, Holds ns fields → ∀ e : ListEnd, e.reading = .ok () → ∀ room, depth ≤ room →
      d (room + 1) (.map (memberNodesWith e ns)) = .ok a) :
    d.Reads (depth + 1) (.map fields) a := by
  intro w hw e he room hroom
  obtain ⟨ns, rfl, hns⟩ := holds_of_reordered hnodup hw
  obtain ⟨room, rfl⟩ := Nat.exists_eq_add_one.2 (Nat.zero_lt_of_lt hroom)
  exact hread ns hns e he room (Nat.le_of_succ_le_succ hroom)

/-! ## Records -/

/-- A field, if its name is among those that have been read. -/
def given (keys : List String) (name : String) (a : α) : Option α :=
  if name ∈ keys then some a else none

variable {keys : List String} {k name : String} {a b : α}

theorem given_perm {keys' : List String} (h : keys.Perm keys') :
    given keys name a = given keys' name a :=
  if_congr h.mem_iff rfl rfl

@[simp] theorem given_append_self : given (keys ++ [k]) k a = some a :=
  if_pos (List.mem_append_right _ List.mem_cons_self)

@[simp] theorem given_append_of_ne (h : name ≠ k) : given (keys ++ [k]) name a = given keys name a := by
  simp only [given, List.mem_append, List.mem_singleton, h, or_false]

theorem once_given {d : Node → Except Fault α} {n : Node} (hnew : name ∉ keys) (h : d n = .ok a) :
    once name (given keys name b) d n = .ok (some a) := by
  rw [given, if_neg hnew, once, h]
  rfl

/-- The members of a record are read in the order in which they stand; what has been read depends on
their names only. -/
theorem fold_record (step : D → String → Node → Except Fault D) (draft : List String → D)
    (h : Holds ns fields)
    (hstep : ∀ keys k v w, (k, v) ∈ fields → Reordered v w → k ∉ keys →
      step (draft keys) k (w.nodeWith e) = .ok (draft (keys ++ [k]))) :
    (memberNodesWith e ns).fold step (draft []) = .ok (draft (ns.map Prod.fst)) := by
  refine fold_members step (fun ms => draft (ms.map Prod.fst)) h.nodup_keys fun before m hm hnew => ?_
  obtain ⟨v, hv, hw⟩ := h.field hm
  rw [List.map_append]
  exact hstep _ _ v _ hv hw hnew

/-- A record is read if each of its fields is, whatever has been read before, and all of them make it
up. -/
theorem reads_record {d : Decoder α} {depth : Nat} (step : Nat → D → String → Node → Except Fault D)
    (draft : List String → D) {done : D → Except Fault α}
    (hd : ∀ room members, d (room + 1) (.map members) = members.fold (step room) (draft []) >>= done)
    (hnodup : (fields.map Prod.fst).Nodup)
    (hstep : ∀ e : ListEnd, e.reading = .ok () → ∀ room, depth ≤ room →
      ∀ keys k v w, (k, v) ∈ fields → Reordered v w → k ∉ keys →
        step room (draft keys) k (w.nodeWith e) = .ok (draft (keys ++ [k])))
    (hdone : ∀ keys, keys.Perm (fields.map Prod.fst) → done (draft keys) = .ok a) :
    d.Reads (depth + 1) (.map fields) a := by
  refine reads_map hnodup fun ns hns e he room hroom => ?_
  rw [hd, fold_record (step room) draft hns (hstep e he room hroom)]
  exact hdone _ hns.keys

/-! ## Whole values -/

mutual

/-- Levels of lists and maps. -/
def Value.depth : Value → Nat
  | .list items => itemsDepth items + 1
  | .map members => membersDepth members + 1
  | _ => 0

def itemsDepth : List Value → Nat
  | [] => 0
  | v :: r => max v.depth (itemsDepth r)

def membersDepth : List (String × Value) → Nat
  | [] => 0
  | (_, v) :: r => max v.depth (membersDepth r)

end

mutual

/-- The document of a value gives the value back. -/
theorem value_nodeWith (he : e.reading = .ok ()) : ∀ (v : Value) (room : Nat), v.depth ≤ room →
    (v.nodeWith e).value room = .ok v
  | .null, _, _ | .bool _, _, _ | .number _, _, _ | .text _, _, _ => rfl
  | .list items, room, h => by
    have hitems := values_itemNodesWith he items (room - 1) (Nat.le_sub_one_of_lt h)
    rw [Value.nodeWith, Node.value, if_neg (Nat.ne_zero_of_lt h), hitems]
    rfl
  | .map members, room, h => by
    have hmembers := values_memberNodesWith he members (room - 1) (Nat.le_sub_one_of_lt h)
    rw [Value.nodeWith, Node.value, if_neg (Nat.ne_zero_of_lt h), hmembers]
    rfl

theorem values_itemNodesWith (he : e.reading = .ok ()) : ∀ (vs : List Value) (room : Nat),
    itemsDepth vs ≤ room → (itemNodesWith e vs).values room = .ok vs
  | [], _, _ => by rw [itemNodesWith, Items.values, he]; rfl
  | v :: r, room, h => by
    rw [itemNodesWith, Items.values, value_nodeWith he v room (Nat.max_le.1 h).1]
    simp only [values_itemNodesWith he r room (Nat.max_le.1 h).2, bind, Except.bind]
    rfl

theorem values_memberNodesWith (he : e.reading = .ok ()) :
    ∀ (ms : List (String × Value)) (room : Nat), membersDepth ms ≤ room →
      (memberNodesWith e ms).values room = .ok ms
  | [], _, _ => rfl
  | (k, v) :: r, room, h => by
    simp only [memberNodesWith, Members.values, Literal.ofText, bind, Except.bind,
      value_nodeWith he v room (Nat.max_le.1 h).1,
      values_memberNodesWith he r room (Nat.max_le.1 h).2]
    rfl

end

end MetricRelay.Json
