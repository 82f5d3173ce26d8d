import ClusterJobs.Proofs.Manifest.Overlays

/-!
# What overlays leave alone

A pointer leads through members of objects and items of lists. Edits leave marks: pointers with what
stands there afterwards. What lies apart from every mark is as before, with one exception: a list that
a mark leads through by a member becomes an object, so its items are gone.
-/

namespace ClusterJobs.Json

/-! ## Pointers -/

/-- One step into a value. -/
inductive Step where
  | member (key : String)
  | item (i : Nat)
deriving DecidableEq, Repr

/-- The steps from a value to one within it. -/
abbrev Pointer := List Step

/-- The pointer that leads through members only. -/
def Path.pointer (path : Path) : Pointer :=
  path.map .member

namespace Pointer

/-- Neither pointer leads through the other. -/
def Apart (p q : Pointer) : Prop :=
  ¬ p <+: q ∧ ¬ q <+: p

instance (p q : Pointer) : Decidable (Apart p q) :=
  inferInstanceAs (Decidable (_ ∧ _))

/-- The first pointer leads through a member where the second one leads through an item. -/
inductive Bars : Pointer → Pointer → Prop where
  | here {key : String} {i : Nat} {p q : Pointer} : Bars (.member key :: p) (.item i :: q)
  | deeper {s : Step} {p q : Pointer} : Bars p q → Bars (s :: p) (s :: q)

/-- The pointers part at two members, or at two items. -/
def Parts : Pointer → Pointer → Prop
  | .member key :: p, .member key' :: q => key ≠ key' ∨ Parts p q
  | .item i :: p, .item j :: q => i ≠ j ∨ Parts p q
  | _, _ => False

instance decidableParts : (p q : Pointer) → Decidable (Parts p q)
  | .member key :: p, .member key' :: q =>
    have := decidableParts p q
    inferInstanceAs (Decidable (key ≠ key' ∨ Parts p q))
  | .item i :: p, .item j :: q =>
    have := decidableParts p q
    inferInstanceAs (Decidable (i ≠ j ∨ Parts p q))
  | [], _ => isFalse id
  | _ :: _, [] => isFalse (by simp [Parts])
  | .member _ :: _, .item _ :: _ => isFalse id
  | .item _ :: _, .member _ :: _ => isFalse id

variable {p q r : Pointer} {s t : Step}

@[simp]
theorem apart_cons : Apart (s :: p) (t :: q) ↔ s ≠ t ∨ Apart p q := by
  simp only [Apart, List.cons_prefix_cons, eq_comm (a := t)]
  by_cases h : s = t <;> simp [h]

@[simp]
theorem not_apart_nil : ¬ Apart [] q :=
  fun h => h.1 List.nil_prefix

@[simp]
theorem not_apart_nil_right : ¬ Apart p [] :=
  fun h => h.2 List.nil_prefix

theorem apart_append_iff : Apart (r ++ p) (r ++ q) ↔ Apart p q := by
  simp only [Apart, List.prefix_append_right_inj]

/-- Of two pointers that do not lie apart one leads through the other. -/
theorem prefix_of_not_apart (h : ¬ Apart p q) : p <+: q ∨ q <+: p := by
  by_contra hne
  exact h (not_or.1 hne)

theorem Bars.append (h : Bars p q) (r : Pointer) : Bars (p ++ r) q := by
  induction h with
  | here => exact .here
  | deeper _ ih => exact .deeper ih

theorem Bars.within (h : Bars p q) (r : Pointer) : Bars (r ++ p) (r ++ q) := by
  induction r with
  | nil => exact h
  | cons s r ih => exact .deeper ih

theorem Parts.symm (h : Parts p q) : Parts q p := by
  fun_induction Parts p q with
  | case1 key p key' q ih => exact h.imp Ne.symm ih
  | case2 i p j q ih => exact h.imp Ne.symm ih
  | case3 => exact h.elim

theorem Parts.apart (h : Parts p q) : Apart p q := by
  fun_induction Parts p q with
  | case1 key p key' q ih => exact apart_cons.2 (h.imp (by simp) ih)
  | case2 i p j q ih => exact apart_cons.2 (h.imp (by simp) ih)
  | case3 => exact h.elim

theorem Parts.not_bars (h : Parts p q) : ¬ Bars p q := by
  intro hb
  induction hb with
  | here => exact h
  | @deeper s p q _ ih => cases s <;> exact ih (h.resolve_left fun hne => hne rfl)

theorem Parts.append_right (h : Parts p q) (r : Pointer) : Parts p (q ++ r) := by
  fun_induction Parts p q with
  | case1 key p key' q ih => exact h.imp_right ih
  | case2 i p j q ih => exact h.imp_right ih
  | case3 => exact h.elim

theorem Parts.within (h : Parts p q) (r : Pointer) : Parts (r ++ p) (r ++ q) := by
  induction r with
  | nil => exact h
  | cons s r ih => cases s <;> exact .inr ih

end Pointer

/-! ## Values at pointers -/

namespace Value

variable {v new object : Value} {path : Path} {p q : Pointer} {key : String} {i : Nat}

/-- The value that is one step away. -/
def step? (v : Value) : Step → Option Value
  | .member key => v.get? key
  | .item i => v.items[i]?

/-- The value that a pointer leads to. -/
def point? (v : Value) : Pointer → Option Value
  | [] => some v
  | s :: q => (v.step? s).bind (·.point? q)

theorem point?_cons (v : Value) (s : Step) (q : Pointer) :
    v.point? (s :: q) = (v.step? s).bind (·.point? q) := rfl

theorem point?_pointer (v : Value) (path : Path) : v.point? path.pointer = v.at? path := by
  induction path generalizing v with
  | nil => rfl
  | cons key path ih => exact congrArg _ (funext fun w => ih w)

theorem point?_append (v : Value) (p q : Pointer) :
    v.point? (p ++ q) = (v.point? p).bind (·.point? q) := by
  induction p generalizing v with
  | nil => rfl
  | cons s p ih =>
    rw [List.cons_append, point?_cons, point?_cons, Option.bind_assoc]
    exact congrArg _ (funext fun w => ih w)

/-- Below what is missing there is nothing, as there is below `null`. -/
theorem point?_getD (x : Option Value) (hq : q ≠ []) :
    (x.getD .null).point? q = x.bind (·.point? q) := by
  cases x with
  | some w => rfl
  | none =>
    obtain ⟨s, q, rfl⟩ := List.exists_cons_of_ne_nil hq
    cases s <;> rfl

theorem point?_plant_append (v : Value) (path : Path) (new : Value) (q : Pointer) :
    (v.plant path new).point? (path.pointer ++ q) = new.point? q := by
  rw [point?_append, point?_pointer, at?_plant_self, Option.bind_some]

/-- What is planted leaves all that lies apart, but for the items of lists that are in the way. -/
theorem point?_plant_of_apart (h : Pointer.Apart (Path.pointer path) q) :
    (v.plant path new).point? q = v.point? q ∨
      (v.plant path new).point? q = none ∧ Pointer.Bars (Path.pointer path) q := by
  induction path generalizing v q with
  | nil => exact absurd h Pointer.not_apart_nil
  | cons key path ih =>
    cases q with
    | nil => exact absurd h Pointer.not_apart_nil_right
    | cons s q =>
      cases s with
      | item i => exact .inr ⟨rfl, .here⟩
      | member key' =>
        by_cases hkey : key = key'
        · subst hkey
          have hbelow : Pointer.Apart (Path.pointer path) q :=
            (Pointer.apart_cons.1 h).resolve_left fun hne => hne rfl
          have hq : q ≠ [] := by
            rintro rfl
            exact Pointer.not_apart_nil_right hbelow
          have hplant : (v.plant (key :: path) new).point? (.member key :: q) =
              ((v.member key).plant path new).point? q := by
            rw [plant, point?_cons, step?, get?_withMember, if_pos rfl, Option.bind_some]
          have hold : v.point? (.member key :: q) = (v.member key).point? q := by
            rw [member_eq, point?_getD _ hq]
            rfl
          rw [hplant, hold]
          exact (ih hbelow).imp_right fun hgone => ⟨hgone.1, .deeper hgone.2⟩
        · left
          rw [plant, point?_cons, step?, get?_withMember, if_neg hkey]
          rfl

/-- A list stands where the first pointer leads through a member, and the second one leads through an
item of it. -/
def ListAt (v : Value) (p q : Pointer) : Prop :=
  ∃ way key rest i below items, p = way ++ .member key :: rest ∧ q = way ++ .item i :: below ∧
    v.point? way = some (.arr items)

theorem exists_arr_of_items (h : v.items[i]? = some new) : ∃ items, v = .arr items := by
  cases v with
  | arr items => exact ⟨items, rfl⟩
  | _ => cases h

/-- Where something is barred there is nothing, or it is below an item of a list. -/
theorem listAt_of_bars (h : Pointer.Bars p q) (hthere : v.point? q = some new) : v.ListAt p q := by
  induction h generalizing v with
  | @here key i p q =>
    obtain ⟨w, hw, -⟩ := Option.bind_eq_some_iff.1 hthere
    obtain ⟨items, rfl⟩ := exists_arr_of_items hw
    exact ⟨[], key, p, i, q, items, rfl, rfl, rfl⟩
  | @deeper s p q _ ih =>
    obtain ⟨w, hw, hthere⟩ := Option.bind_eq_some_iff.1 hthere
    obtain ⟨way, key, rest, i, below, items, rfl, rfl, hlist⟩ := ih hthere
    refine ⟨s :: way, key, rest, i, below, items, rfl, rfl, ?_⟩
    rw [point?_cons, hw, Option.bind_some, hlist]

end Value

/-! ## Marks -/

/-- Where something was written, and what stands there now: a value, or nothing. -/
structure Mark where
  pointer : Pointer
  value : Option Value

/-- The mark as it is seen from further out. -/
def Mark.below (p : Pointer) (m : Mark) : Mark :=
  ⟨p ++ m.pointer, m.value⟩

/-- The second value has all that is marked, and all that lies apart from the marks is as in the first
value, but for items of lists that are in the way of a mark. -/
structure Lays (marks : List Mark) (v w : Value) : Prop where
  untouched : ∀ q, (∀ m ∈ marks, Pointer.Apart m.pointer q) →
    w.point? q = v.point? q ∨ w.point? q = none ∧ ∃ m ∈ marks, Pointer.Bars m.pointer q
  written : ∀ m ∈ marks, w.point? m.pointer = m.value

section Lays

variable {marks others : List Mark} {u v w new : Value} {path : Path}

theorem Lays.refl (v : Value) : Lays [] v v :=
  ⟨fun _ _ => .inl rfl, fun _ hm => nomatch hm⟩

/-- What is laid over a part of a value is laid over the value. -/
theorem Lays.plant (h : Lays marks ((v.at? path).getD .null) new) (hne : marks ≠ []) :
    Lays (marks.map (Mark.below path.pointer)) v (v.plant path new) := by
  obtain ⟨m₀, hm₀⟩ := List.exists_mem_of_ne_nil marks hne
  constructor
  · intro q hq
    have hapart : ∀ m ∈ marks, Pointer.Apart (path.pointer ++ m.pointer) q :=
      List.forall_mem_map.1 hq
    by_cases hpath : Pointer.Apart path.pointer q
    · refine (Value.point?_plant_of_apart hpath).imp_right ?_
      rintro ⟨hgone, hbars⟩
      exact ⟨hgone, _, List.mem_map_of_mem hm₀, hbars.append m₀.pointer⟩
    · rcases Pointer.prefix_of_not_apart hpath with ⟨rest, rfl⟩ | hlonger
      · have hrest : ∀ m ∈ marks, Pointer.Apart m.pointer rest := fun m hm =>
          Pointer.apart_append_iff.1 (hapart m hm)
        have hne : rest ≠ [] := by
          rintro rfl
          exact Pointer.not_apart_nil_right (hrest m₀ hm₀)
        rw [Value.point?_plant_append, Value.point?_append, Value.point?_pointer,
          ← Value.point?_getD _ hne]
        refine (h.untouched rest hrest).imp_right ?_
        rintro ⟨hgone, m, hm, hbars⟩
        exact ⟨hgone, _, List.mem_map_of_mem hm, hbars.within path.pointer⟩
      · exact absurd (hlonger.trans (List.prefix_append _ _)) (hapart m₀ hm₀).2
  · rw [List.forall_mem_map]
    intro m hm
    exact (Value.point?_plant_append v path new m.pointer).trans (h.written m hm)

theorem Lays.append (h : Lays marks v u) (h' : Lays others u w)
    (hparts : ∀ m ∈ marks, ∀ n ∈ others, Pointer.Parts m.pointer n.pointer) :
    Lays (marks ++ others) v w := by
  constructor
  · intro q hq
    obtain ⟨hmarks, hothers⟩ := List.forall_mem_append.1 hq
    rcases h'.untouched q hothers with hsame | ⟨hgone, n, hn, hbars⟩
    · rw [hsame]
      refine (h.untouched q hmarks).imp_right ?_
      rintro ⟨hgone, m, hm, hbars⟩
      exact ⟨hgone, m, List.mem_append_left _ hm, hbars⟩
    · exact .inr ⟨hgone, n, List.mem_append_right _ hn, hbars⟩
  · rw [List.forall_mem_append]
    refine ⟨fun m hm => ?_, h'.written⟩
    rcases h'.untouched m.pointer fun n hn => (hparts m hm n hn).symm.apart with
      hsame | ⟨-, n, hn, hbars⟩
    · exact hsame.trans (h.written m hm)
    · exact absurd hbars (hparts m hm n hn).symm.not_bars

end Lays

/-! ## Marks of edits -/

namespace Edit

variable {e : Edit} {es : List Edit} {v w : Value}

/-- Where the edit makes its change. -/
def root : Edit → Path
  | set path _ => path
  | assign parent _ _ => parent
  | extendFirst base path _ => base ++ path
  | drop parent _ => parent

/-- What the edit writes there. -/
def inner : Edit → List Mark
  | set _ new => [⟨[], some new⟩]
  | assign _ key new => [⟨[.member key], some new⟩]
  | extendFirst _ _ added => added.map fun p => ⟨[.item 0, .member p.1], some p.2⟩
  | drop _ key => [⟨[.member key], none⟩]

/-- What the edit writes. -/
def marks (e : Edit) : List Mark :=
  e.inner.map (Mark.below e.root.pointer)

/-- One member is another one, or is not there any more. -/
theorem lays_member {old object : Value} {key : String} {x : Option Value}
    (hkey : object.get? key = x)
    (hother : ∀ other, key ≠ other → object.get? other = old.get? other)
    (hitems : object.items = [] ∨ object.items = old.items) :
    Lays [⟨[.member key], x⟩] old object := by
  refine ⟨fun q hq => ?_, List.forall_mem_singleton.2 ?_⟩
  · have hq : Pointer.Apart [.member key] q := hq _ (.head _)
    match q with
    | [] => exact absurd hq Pointer.not_apart_nil_right
    | .member other :: q =>
      have hne : key ≠ other := by
        rcases Pointer.apart_cons.1 hq with hne | hq
        · exact fun heq => hne (congrArg _ heq)
        · exact absurd hq Pointer.not_apart_nil
      left
      rw [Value.point?_cons, Value.step?, hother other hne]
      rfl
    | .item i :: q =>
      rcases hitems with hnone | hsame
      · refine .inr ⟨?_, _, .head _, .here⟩
        rw [Value.point?_cons, Value.step?, hnone]
        rfl
      · left
        rw [Value.point?_cons, Value.step?, hsame]
        rfl
  · rw [Value.point?_cons, Value.step?, hkey]
    exact Option.bind_fun_some x

/-- The first item of a list gains members. -/
theorem lays_firstItem {ms added : List (String × Value)} {items : List Value}
    (hne : added ≠ []) (hnodup : (added.map Prod.fst).Nodup) :
    Lays (added.map fun p => ⟨[.item 0, .member p.1], some p.2⟩)
      (.arr (.obj ms :: items)) (.arr (Value.extend ms added :: items)) := by
  obtain ⟨p₀, hp₀⟩ := List.exists_mem_of_ne_nil added hne
  refine ⟨fun q hq => .inl ?_, List.forall_mem_map.2 fun p hp => ?_⟩
  · have hq : ∀ p ∈ added, Pointer.Apart [.item 0, .member p.1] q := List.forall_mem_map.1 hq
    match q with
    | [] => exact absurd (hq p₀ hp₀) Pointer.not_apart_nil_right
    | .member key :: q => rfl
    | .item (i + 1) :: q => rfl
    | [.item 0] => simpa using hq p₀ hp₀
    | .item 0 :: .item i :: q => rfl
    | .item 0 :: .member key :: q =>
      have hkey : ∀ p ∈ added, p.1 ≠ key := fun p hp => by simpa using hq p hp
      change ((Value.extend ms added).get? key).bind _ = ((Value.obj ms).get? key).bind _
      rw [Value.extend, Value.get?, Fields.get?_overwrite_of_ne hkey]
      rfl
  · change ((Value.extend ms added).get? p.1).bind _ = some p.2
    rw [Value.extend, Value.get?, Fields.get?_overwrite_of_mem hnodup hp]
    rfl

/-- The edit writes something, and no member twice. -/
def Writes : Edit → Prop
  | extendFirst _ _ added => added ≠ [] ∧ (added.map Prod.fst).Nodup
  | _ => True

@[simp]
theorem writes_set {path : Path} {new : Value} : (set path new).Writes :=
  trivial

@[simp]
theorem writes_assign {parent : Path} {key : String} {new : Value} :
    (assign parent key new).Writes :=
  trivial

@[simp]
theorem writes_drop {parent : Path} {key : String} : (drop parent key).Writes :=
  trivial

@[simp]
theorem writes_extendFirst {base path : Path} {added : List (String × Value)} :
    (extendFirst base path added).Writes ↔ added ≠ [] ∧ (added.map Prod.fst).Nodup :=
  .rfl

theorem inner_ne_nil (hw : e.Writes) : e.inner ≠ [] := by
  cases e with
  | extendFirst base path added => simpa [inner] using hw.1
  | _ => exact List.cons_ne_nil _ _

theorem lays_apply (h : e.apply v = .ok w) (hw : e.Writes) : Lays e.marks v w := by
  suffices hinner : ∃ new, w = v.plant e.root new ∧
      Lays e.inner ((v.at? e.root).getD .null) new by
    obtain ⟨new, rfl, hlays⟩ := hinner
    exact hlays.plant (inner_ne_nil hw)
  cases e with
  | set path new =>
    refine ⟨new, apply_set_eq_ok_iff.1 h, fun q hq => ?_, List.forall_mem_singleton.2 rfl⟩
    exact absurd (hq _ (.head _)) Pointer.not_apart_nil
  | assign parent key new =>
    obtain ⟨object, rfl, hkey, hother⟩ := exists_of_assign h
    obtain ⟨ms, rfl⟩ := Value.exists_obj_of_get? hkey
    exact ⟨_, rfl, lays_member hkey hother (.inl rfl)⟩
  | extendFirst base path added =>
    obtain ⟨ms, items, hat, rfl⟩ := exists_of_extendFirst h
    refine ⟨_, rfl, ?_⟩
    rw [root, hat]
    exact lays_firstItem hw.1 hw.2
  | drop parent key =>
    obtain ⟨object, rfl, hkey, hother, hitems⟩ := exists_of_drop h
    exact ⟨object, rfl, lays_member hkey hother (.inr hitems)⟩

theorem lays_applyAll (h : applyAll es v = .ok w) (hw : ∀ e ∈ es, e.Writes)
    (hparts : (es.flatMap marks).Pairwise fun m n => Pointer.Parts m.pointer n.pointer) :
    Lays (es.flatMap marks) v w := by
  induction es generalizing v with
  | nil =>
    cases h
    exact .refl w
  | cons e es ih =>
    obtain ⟨u, hu, h⟩ := bind_eq_ok_iff.1 h
    rw [List.flatMap_cons] at hparts ⊢
    obtain ⟨-, hrest, hcross⟩ := List.pairwise_append.1 hparts
    exact (lays_apply hu (hw e (.head _))).append (ih h (fun f hf => hw f (.tail _ hf)) hrest)
      hcross

end Edit

end ClusterJobs.Json
