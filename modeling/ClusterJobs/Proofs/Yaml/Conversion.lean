import ClusterJobs.Proofs.Decimal.Plain
import ClusterJobs.Proofs.Wire.Codecs
import ClusterJobs.Yaml.Tree
import Mathlib.Data.List.Induction

/-!
# Trees as JSON values

A tree has a JSON value unless one that stands in it in the place of a value has none whatever is
around it. Sequences keep their items in order, and a mapping keeps the last value of each name. So
every JSON value is that of the tree that says it.
-/

namespace ClusterJobs

/-! ## The last value of a name -/

namespace Fields

variable {α : Type} {pairs : List (String × α)} {key : String} {v : α}

theorem get?_ofPairs_eq_find? (pairs : List (String × α)) (key : String) :
    (ofPairs pairs).get? key = (pairs.reverse.find? fun p => p.1 = key).map Prod.snd := by
  induction pairs using List.reverseRecOn with
  | nil => rfl
  | append_singleton pairs p ih =>
    have hsnoc : ofPairs (pairs ++ [p]) = (ofPairs pairs).put p.1 p.2 := List.foldl_concat ..
    rw [hsnoc, get?_put, List.reverse_append, List.reverse_singleton, List.singleton_append,
      List.find?_cons, ih]
    by_cases hkey : p.1 = key <;> simp [hkey]

theorem get?_ofPairs_eq_some_iff : (ofPairs pairs).get? key = some v ↔
    ∃ before after, pairs = before ++ (key, v) :: after ∧ ∀ p ∈ after, p.1 ≠ key := by
  rw [get?_ofPairs_eq_find?, Option.map_eq_some_iff]
  constructor
  · rintro ⟨⟨k, w⟩, hfind, rfl⟩
    obtain ⟨hkey, before, after, hpairs, hbefore⟩ := List.find?_eq_some_iff_append.1 hfind
    obtain rfl : k = key := of_decide_eq_true hkey
    exact ⟨after.reverse, before.reverse, by simpa using congrArg List.reverse hpairs,
      by simpa using hbefore⟩
  · rintro ⟨before, after, rfl, hafter⟩
    refine ⟨(key, v), List.find?_eq_some_iff_append.2 ⟨by simp, after.reverse, before.reverse, ?_⟩,
      rfl⟩
    simpa using hafter

end Fields

/-! ## Lists side by side -/

section Forall₂

variable {α β : Type} {R : α → β → Prop} {xs : List α} {ys : List β} {x : α}

/-- Lists that go together are split at the same place. -/
theorem split_of_forall₂ {before after : List α} (h : List.Forall₂ R xs ys)
    (hxs : xs = before ++ x :: after) :
    ∃ before' y after', ys = before' ++ y :: after' ∧ R x y ∧ List.Forall₂ R after after' := by
  subst hxs
  induction before generalizing ys with
  | nil =>
    cases h with
    | cons hxy h => exact ⟨[], _, _, rfl, hxy, h⟩
  | cons b before ih =>
    cases h with
    | cons _ h =>
      obtain ⟨before', y, after', rfl, hxy, hafter⟩ := ih h
      exact ⟨_ :: before', y, after', rfl, hxy, hafter⟩

theorem exists_mem_of_forall₂ (h : List.Forall₂ R xs ys) (hx : x ∈ xs) :
    ∃ y ∈ ys, R x y := by
  obtain ⟨before, after, hxs⟩ := List.append_of_mem hx
  obtain ⟨before', y, after', rfl, hxy, -⟩ := split_of_forall₂ h hxs
  exact ⟨y, by simp, hxy⟩

theorem exists_forall₂ (h : ∀ x ∈ xs, ∃ y, R x y) : ∃ ys, List.Forall₂ R xs ys := by
  induction xs with
  | nil => exact ⟨[], .nil⟩
  | cons x xs ih =>
    obtain ⟨⟨y, hy⟩, hxs⟩ := List.forall_mem_cons.1 h
    obtain ⟨ys, hys⟩ := ih hxs
    exact ⟨y :: ys, .cons hy hys⟩

end Forall₂

namespace Yaml

open Json (Value)

namespace Tree

variable {t u k : Tree} {items : List Tree} {pairs : List (Tree × Tree)} {text key : String}
  {v w : Value} {x : Float}

/-! ## What trees say -/

/-- The name of the member that a key makes. A collection, an alias and a bad value make none. -/
inductive Names : Tree → String → Prop where
  | string (s : String) : Names (.string s) s
  | integer (n : Int) : Names (.integer n) (toString n)
  | real (text : String) : Names (.real text) text
  | yes : Names (.boolean true) "true"
  | no : Names (.boolean false) "false"
  | null : Names .null "null"

theorem keyText?_eq_some_iff : k.keyText? = some key ↔ k.Names key := by
  constructor
  · intro h
    cases k with
    | boolean b => cases b <;> cases h <;> constructor
    | string | integer | real | null =>
      cases h
      constructor
    | _ => cases h
  · rintro (_ | _ | _ | _ | _ | _) <;> rfl

theorem keyText?_eq_none_iff : k.keyText? = none ↔ ∀ key, ¬ k.Names key := by
  simp only [← keyText?_eq_some_iff, Option.eq_none_iff_forall_ne_some, ne_eq]

/-- The value of a scalar. A real beyond the range of floats has none but `null`. -/
inductive Scalar : Tree → Value → Prop where
  | null : Scalar .null .null
  | boolean (b : Bool) : Scalar (.boolean b) (.bool b)
  | integer (n : Int) : Scalar (.integer n) (.int n)
  | string (s : String) : Scalar (.string s) (.str s)
  | real {text : String} {x : Float} : Decimal.readFloat? text.toList = some x →
      x.isFinite = true → Scalar (.real text) (.float x)
  | beyond {text : String} {x : Float} : Decimal.readFloat? text.toList = some x →
      x.isFinite = false → Scalar (.real text) .null

theorem toJson_real (hread : Decimal.readFloat? text.toList = some x) :
    (real text).toJson = .ok (if x.isFinite then .float x else .null) := by
  rw [toJson, hread]

theorem Scalar.toJson (h : t.Scalar v) : t.toJson = .ok v := by
  cases h with
  | real hread hfinite => rw [toJson_real hread, if_pos hfinite]
  | beyond hread hbeyond => rw [toJson_real hread, if_neg (by simp [hbeyond])]
  | _ => rw [Tree.toJson]

/-- The first tree stands in the place of a value somewhere in the second one, or is that one. -/
inductive Within (u : Tree) : Tree → Prop where
  | self : Within u u
  | item {items : List Tree} {t : Tree} : t ∈ items → Within u t → Within u (.sequence items)
  | value {pairs : List (Tree × Tree)} {k t : Tree} : (k, t) ∈ pairs → Within u t →
      Within u (.mapping pairs)

/-- A tree that has no JSON value, whatever the values in it are. -/
inductive Foreign : Tree → Prop where
  | alias (anchor : Nat) : Foreign (.alias anchor)
  | bad : Foreign .bad
  | real {text : String} : Decimal.readFloat? text.toList = none → Foreign (.real text)
  | key {pairs : List (Tree × Tree)} {k t : Tree} : (k, t) ∈ pairs → (∀ key, ¬ k.Names key) →
      Foreign (.mapping pairs)

/-- One of the trees in it has no JSON value. -/
def Obstructed (t : Tree) : Prop :=
  ∃ u, Within u t ∧ u.Foreign

theorem obstructed_sequence : (sequence items).Obstructed ↔ ∃ t ∈ items, t.Obstructed := by
  constructor
  · rintro ⟨u, hwithin, hforeign⟩
    cases hwithin with
    | self => cases hforeign
    | item ht hwithin => exact ⟨_, ht, u, hwithin, hforeign⟩
  · rintro ⟨t, ht, u, hwithin, hforeign⟩
    exact ⟨u, .item ht hwithin, hforeign⟩

theorem obstructed_mapping : (mapping pairs).Obstructed ↔
    ∃ p ∈ pairs, (∀ key, ¬ p.1.Names key) ∨ p.2.Obstructed := by
  constructor
  · rintro ⟨u, hwithin, hforeign⟩
    cases hwithin with
    | self =>
      cases hforeign with
      | key hp hkey => exact ⟨_, hp, .inl hkey⟩
    | value hp hwithin => exact ⟨_, hp, .inr ⟨u, hwithin, hforeign⟩⟩
  · rintro ⟨⟨k, t⟩, hp, hkey | ⟨u, hwithin, hforeign⟩⟩
    · exact ⟨_, .self, .key hp hkey⟩
    · exact ⟨u, .value hp hwithin, hforeign⟩

/-- A tree that is no collection is obstructed by itself alone. -/
theorem obstructed_iff_foreign (hitems : ∀ items, t ≠ .sequence items)
    (hpairs : ∀ pairs, t ≠ .mapping pairs) : t.Obstructed ↔ t.Foreign := by
  constructor
  · rintro ⟨u, hwithin, hforeign⟩
    cases hwithin with
    | self => exact hforeign
    | item => exact absurd rfl (hitems _)
    | value => exact absurd rfl (hpairs _)
  · exact fun h => ⟨t, .self, h⟩

/-! ## Errors -/

theorem exists_map_eq_error_iff {ε α β : Type} {x : Except ε α} {f : α → β} :
    (∃ e, x.map f = .error e) ↔ ∃ e, x = .error e := by
  cases x <;> simp [Except.map]

theorem Scalar.not_foreign (h : t.Scalar v) : ¬ t.Foreign := by
  intro hforeign
  cases h with
  | real hread | beyond hread =>
    cases hforeign with
    | real hnone => cases hnone.symm.trans hread
  | _ => cases hforeign

theorem Scalar.exists_error_iff (h : t.Scalar v) :
    (∃ e, t.toJson = .error e) ↔ t.Obstructed := by
  refine iff_of_false (by simp [h.toJson]) ?_
  rw [obstructed_iff_foreign]
  · exact h.not_foreign
  · rintro items rfl
    cases h
  · rintro pairs rfl
    cases h

mutual

/-- A tree has no value if and only if one that stands in it has none whatever is around it. -/
theorem exists_error_iff : ∀ t : Tree, (∃ e, t.toJson = .error e) ↔ t.Obstructed
  | .null => Scalar.null.exists_error_iff
  | .boolean b => (Scalar.boolean b).exists_error_iff
  | .integer n => (Scalar.integer n).exists_error_iff
  | .string s => (Scalar.string s).exists_error_iff
  | .real text => by
    cases hread : Decimal.readFloat? text.toList with
    | none =>
      rw [toJson, hread]
      exact iff_of_true ⟨_, rfl⟩ ⟨_, .self, .real hread⟩
    | some x =>
      cases hfinite : x.isFinite with
      | true => exact (Scalar.real hread hfinite).exists_error_iff
      | false => exact (Scalar.beyond hread hfinite).exists_error_iff
  | .sequence items => by
    rw [obstructed_sequence, ← exists_error_items_iff items, toJson, exists_map_eq_error_iff]
  | .mapping pairs => by
    rw [obstructed_mapping, ← exists_error_pairs_iff pairs, toJson, exists_map_eq_error_iff]
  | .alias anchor => by
    rw [toJson]
    exact iff_of_true ⟨_, rfl⟩ ⟨_, .self, .alias anchor⟩
  | .bad => by
    rw [toJson]
    exact iff_of_true ⟨_, rfl⟩ ⟨_, .self, .bad⟩

theorem exists_error_items_iff : ∀ items : List Tree,
    (∃ e, itemsToJson items = .error e) ↔ ∃ t ∈ items, t.Obstructed
  | [] => by simp [itemsToJson]
  | t :: rest => by
    rw [itemsToJson, List.exists_mem_cons_iff, ← exists_error_iff t, ← exists_error_items_iff rest]
    cases t.toJson <;> cases itemsToJson rest <;> simp [bind, Except.bind]

theorem exists_error_pairs_iff : ∀ pairs : List (Tree × Tree),
    (∃ e, pairsToJson pairs = .error e) ↔
      ∃ p ∈ pairs, (∀ key, ¬ p.1.Names key) ∨ p.2.Obstructed
  | [] => by simp [pairsToJson]
  | (k, t) :: rest => by
    rw [pairsToJson, List.exists_mem_cons_iff, ← exists_error_pairs_iff rest, ← exists_error_iff t,
      ← keyText?_eq_none_iff]
    cases k.keyText? <;> cases t.toJson <;> cases pairsToJson rest <;> simp [bind, Except.bind]

end

/-! ## Values -/

theorem itemsToJson_eq_ok_iff {vs : List Value} : itemsToJson items = .ok vs ↔
    List.Forall₂ (fun t v => t.toJson = .ok v) items vs := by
  induction items generalizing vs with
  | nil => simp [itemsToJson, eq_comm]
  | cons t rest ih =>
    rw [itemsToJson, List.forall₂_cons_left_iff]
    simp only [← ih]
    cases t.toJson <;> cases itemsToJson rest <;> simp [bind, Except.bind, eq_comm]

/-- The pair makes the member. -/
def Makes (p : Tree × Tree) (m : String × Value) : Prop :=
  p.1.Names m.1 ∧ p.2.toJson = .ok m.2

theorem pairsToJson_eq_ok_iff {ms : List (String × Value)} :
    pairsToJson pairs = .ok ms ↔ List.Forall₂ Makes pairs ms := by
  induction pairs generalizing ms with
  | nil => simp [pairsToJson, eq_comm]
  | cons p rest ih =>
    rw [List.forall₂_cons_left_iff]
    simp only [pairsToJson, ← ih, Makes, ← keyText?_eq_some_iff, Prod.exists]
    cases p.1.keyText? <;> cases p.2.toJson <;> cases pairsToJson rest <;>
      simp [bind, Except.bind, eq_comm]

theorem toJson_sequence_iff : (sequence items).toJson = .ok v ↔
    ∃ vs, v = .arr vs ∧ List.Forall₂ (fun t w => t.toJson = .ok w) items vs := by
  simp only [← itemsToJson_eq_ok_iff, toJson]
  cases itemsToJson items <;> simp [Except.map, eq_comm]

theorem toJson_mapping_iff : (mapping pairs).toJson = .ok v ↔
    ∃ ms, v = .obj (Fields.ofPairs ms) ∧ List.Forall₂ Makes pairs ms := by
  simp only [← pairsToJson_eq_ok_iff, toJson]
  cases pairsToJson pairs <;> simp [Except.map, Value.object, eq_comm]

theorem Names.unique {key' : String} (h : k.Names key) (h' : k.Names key') : key = key' := by
  rw [← keyText?_eq_some_iff] at h h'
  exact Option.some.inj (h.symm.trans h')

/-- The value of a mapping for a name: that of the last pair whose key makes the name. -/
inductive Last (pairs : List (Tree × Tree)) (key : String) (t : Tree) : Prop where
  | of {before after : List (Tree × Tree)} {k : Tree} : pairs = before ++ (k, t) :: after →
      k.Names key → (∀ p ∈ after, ¬ p.1.Names key) → Last pairs key t

section Members

variable {ms : List (String × Value)}

theorem get?_iff_last (h : List.Forall₂ Makes pairs ms) :
    (Fields.ofPairs ms).get? key = some w ↔ ∃ t, Last pairs key t ∧ t.toJson = .ok w := by
  have hflip : List.Forall₂ (flip Makes) ms pairs := List.Forall₂.flip h
  -- Pairs and members go side by side, so the last of a name stand at the same place.
  rw [Fields.get?_ofPairs_eq_some_iff]
  constructor
  · rintro ⟨before, after, hms, hafter⟩
    obtain ⟨before', ⟨k, t⟩, after', hpairs, ⟨hnames, ht⟩, hrest⟩ := split_of_forall₂ hflip hms
    refine ⟨t, .of hpairs hnames fun p hp hkey => ?_, ht⟩
    obtain ⟨m, hm, hmakes, -⟩ := exists_mem_of_forall₂ hrest.flip hp
    exact hafter m hm (hmakes.unique hkey)
  · rintro ⟨t, ⟨hpairs, hnames, hafter⟩, ht⟩
    obtain ⟨before', ⟨key', w'⟩, after', hms, ⟨hnames', ht'⟩, hrest⟩ := split_of_forall₂ h hpairs
    obtain rfl : key' = key := hnames'.unique hnames
    obtain rfl : w' = w := Except.ok.inj (ht'.symm.trans ht)
    refine ⟨before', after', hms, fun m hm hkey => ?_⟩
    obtain ⟨p, hp, hmakes, -⟩ := exists_mem_of_forall₂ (List.Forall₂.flip hrest) hm
    exact hafter p hp (hkey ▸ hmakes)

theorem exists_get?_iff (h : List.Forall₂ Makes pairs ms) :
    (∃ w, (Fields.ofPairs ms).get? key = some w) ↔ ∃ p ∈ pairs, p.1.Names key := by
  rw [← Option.isSome_iff_exists, Fields.get?_ofPairs_eq_find?, Option.isSome_map,
    List.find?_isSome]
  simp only [List.mem_reverse, decide_eq_true_eq]
  constructor
  · rintro ⟨m, hm, rfl⟩
    obtain ⟨p, hp, hnames, -⟩ := exists_mem_of_forall₂ (List.Forall₂.flip h) hm
    exact ⟨p, hp, hnames⟩
  · rintro ⟨p, hp, hkey⟩
    obtain ⟨m, hm, hnames, -⟩ := exists_mem_of_forall₂ h hp
    exact ⟨m, hm, hnames.unique hkey⟩

end Members

/-! ## Every JSON value -/

mutual

/-- The tree that says a JSON value, if floats are written so. -/
def ofJson (write : Float → String) : Value → Tree
  | .null => .null
  | .bool b => .boolean b
  | .int n => .integer n
  | .float x => .real (write x)
  | .str s => .string s
  | .arr vs => .sequence (ofJsonItems write vs)
  | .obj ms => .mapping (ofJsonMembers write ms)

def ofJsonItems (write : Float → String) : List Value → List Tree
  | [] => []
  | v :: rest => ofJson write v :: ofJsonItems write rest

def ofJsonMembers (write : Float → String) : List (String × Value) → List (Tree × Tree)
  | [] => []
  | (key, v) :: rest => (.string key, ofJson write v) :: ofJsonMembers write rest

end

/-- Finite floats are read from their texts. -/
def ReadsBack (write : Float → String) : Prop :=
  ∀ x : Float, x.isFinite = true → Decimal.readFloat? (write x).toList = some x

theorem readsBack_plainText : ReadsBack Decimal.plainText :=
  fun _ => Decimal.readFloat?_plainText_of_isFinite

section OfJson

variable {write : Float → String}

mutual

/-- The tree that says a proper value has this value. -/
theorem toJson_ofJson (hw : ReadsBack write) :
    ∀ v : Value, v.Proper → (ofJson write v).toJson = .ok v
  | .null, _ => Scalar.null.toJson
  | .bool b, _ => (Scalar.boolean b).toJson
  | .int n, _ => (Scalar.integer n).toJson
  | .str s, _ => (Scalar.string s).toJson
  | .float x, .float hx => (Scalar.real (hw x hx) hx).toJson
  | .arr vs, .arr hvs => by simp [ofJson, toJson, itemsToJson_ofJsonItems hw vs hvs, Except.map]
  | .obj ms, .obj hms hvalues => by
    simp [ofJson, toJson, pairsToJson_ofJsonMembers hw ms hvalues, Except.map, Value.object,
      Fields.ofPairs_of_sorted hms]

theorem itemsToJson_ofJsonItems (hw : ReadsBack write) :
    ∀ vs : List Value, (∀ v ∈ vs, v.Proper) → itemsToJson (ofJsonItems write vs) = .ok vs
  | [], _ => rfl
  | v :: vs, h => by
    rw [List.forall_mem_cons] at h
    simp [ofJsonItems, itemsToJson, toJson_ofJson hw v h.1, itemsToJson_ofJsonItems hw vs h.2, bind,
      Except.bind]

theorem pairsToJson_ofJsonMembers (hw : ReadsBack write) :
    ∀ ms : Fields Value, (∀ p ∈ ms, p.2.Proper) → pairsToJson (ofJsonMembers write ms) = .ok ms
  | [], _ => rfl
  | (key, v) :: ms, h => by
    rw [List.forall_mem_cons] at h
    simp [ofJsonMembers, pairsToJson, keyText?, toJson_ofJson hw v h.1,
      pairsToJson_ofJsonMembers hw ms h.2, bind, Except.bind]

end

end OfJson

end Tree

end Yaml

end ClusterJobs
