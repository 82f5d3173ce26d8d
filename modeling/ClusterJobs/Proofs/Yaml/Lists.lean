import ClusterJobs.Proofs.Yaml.Conversion

/-!
# Lists of texts

A text lists the items of its first document, each with the text of its value. A document that is
nothing lists nothing, and so does a real beyond the range of floats, though it is no sequence.
-/

namespace ClusterJobs

/-! ## Blank texts -/

namespace Text

theorem trimChars_eq_nil_iff (cs : List Char) :
    trimChars cs = [] ↔ ∀ c ∈ cs, isBlank c = true := by
  rw [trimChars, List.reverse_eq_nil_iff]
  cases hcs : cs.dropWhile isBlank with
  | nil => exact iff_of_true rfl (List.dropWhile_eq_nil_iff.1 hcs)
  | cons c rest =>
    have hfirst : ¬ isBlank c = true := by
      have h := List.head_dropWhile_not (p := isBlank) (l := cs) (by simp [hcs])
      simpa [hcs] using h
    refine iff_of_false (fun h => hfirst ?_) fun h => ?_
    · exact List.dropWhile_eq_nil_iff.1 h c (by simp)
    · rw [List.dropWhile_eq_nil_iff.2 h] at hcs
      cases hcs

theorem isEmpty_trim_iff (text : String) :
    (trim text).isEmpty = true ↔ isBlankText text = true := by
  rw [String.isEmpty_iff, trim, isBlankText, List.all_eq_true, ← trimChars_eq_nil_iff]
  exact ⟨fun h => by simpa using congrArg String.toList h, fun h => by rw [h]⟩

end Text

namespace Yaml

open Json (Value)

variable {t : Tree} {v : Value} {text s : String} {texts : List String} {docs : List Tree}

/-! ## Items -/

/-- The text of a value that is no collection. -/
inductive Spells : Value → String → Prop where
  | str (s : String) : Spells (.str s) s
  | int (n : Int) : Spells (.int n) (toString n)
  | float (x : Float) : Spells (.float x) (Value.float x).render
  | yes : Spells (.bool true) "true"
  | no : Spells (.bool false) "false"
  | null : Spells .null ""

theorem itemText?_eq_some_iff : itemText? v = some s ↔ Spells v s := by
  constructor
  · intro h
    cases v with
    | bool b => cases b <;> cases h <;> constructor
    | str | int | float | null =>
      cases h
      constructor
    | _ => cases h
  · rintro (_ | _ | _ | _ | _ | _) <;> rfl

theorem itemTexts_eq_ok_iff {vs : List Value} :
    itemTexts text vs = .ok texts ↔ List.Forall₂ Spells vs texts := by
  induction vs generalizing texts with
  | nil => simp [itemTexts, eq_comm]
  | cons v rest ih =>
    simp only [itemTexts, List.forall₂_cons_left_iff, ← ih, ← itemText?_eq_some_iff]
    cases itemText? v <;> cases itemTexts text rest <;> simp [Except.map, eq_comm]

/-! ## Documents -/

namespace Tree

/-- The value of the tree has this text. -/
def Spells (t : Tree) (s : String) : Prop :=
  ∃ v, t.toJson = .ok v ∧ Yaml.Spells v s

/-- A real that is read as an infinity, or as no number. -/
inductive Beyond : Tree → Prop where
  | of {text : String} {x : Float} : Decimal.readFloat? text.toList = some x →
      x.isFinite = false → Beyond (.real text)

/-- The document is a list: it is nothing, or a sequence of items that have a text. -/
inductive IsList : Tree → Prop where
  | null : IsList .null
  | sequence {items : List Tree} : (∀ t ∈ items, ∃ s, t.Spells s) → IsList (.sequence items)

/-- What a document lists. -/
inductive Lists : Tree → List String → Prop where
  | null : Lists .null []
  | sequence {items : List Tree} {texts : List String} : List.Forall₂ Spells items texts →
      Lists (.sequence items) texts
  | beyond {t : Tree} : t.Beyond → Lists t []

theorem Beyond.toJson (h : t.Beyond) : t.toJson = .ok .null := by
  cases h with
  | of hread hbeyond => exact (Scalar.beyond hread hbeyond).toJson

theorem Beyond.not_isList (h : t.Beyond) : ¬ t.IsList := by
  cases h
  exact nofun

theorem toJson_eq_null_iff : t.toJson = .ok .null ↔ t = .null ∨ t.Beyond := by
  refine ⟨fun h => ?_, fun h => h.elim (fun heq => heq ▸ Scalar.null.toJson) Beyond.toJson⟩
  cases t with
  | null => exact .inl rfl
  | real text =>
    cases hread : Decimal.readFloat? text.toList with
    | none =>
      rw [Tree.toJson, hread] at h
      cases h
    | some x =>
      cases hfinite : x.isFinite with
      | false => exact .inr (.of hread hfinite)
      | true =>
        rw [toJson_real hread, if_pos hfinite] at h
        cases h
  | sequence items =>
    obtain ⟨vs, hvs, -⟩ := toJson_sequence_iff.1 h
    cases hvs
  | mapping pairs =>
    obtain ⟨ms, hms, -⟩ := toJson_mapping_iff.1 h
    cases hms
  | _ =>
    rw [Tree.toJson] at h
    cases h

/-- Only a sequence has a list for its value. -/
theorem toJson_eq_arr_iff {vs : List Value} : t.toJson = .ok (.arr vs) ↔
    ∃ items, t = .sequence items ∧ List.Forall₂ (fun u v => u.toJson = .ok v) items vs := by
  constructor
  · intro h
    cases t with
    | sequence items =>
      obtain ⟨ws, hws, hitems⟩ := toJson_sequence_iff.1 h
      cases hws
      exact ⟨items, rfl, hitems⟩
    | mapping pairs =>
      obtain ⟨ms, hms, -⟩ := toJson_mapping_iff.1 h
      cases hms
    | real text =>
      rw [Tree.toJson] at h
      split at h
      · split at h <;> cases h
      · cases h
    | _ =>
      rw [Tree.toJson] at h
      cases h
  · rintro ⟨items, rfl, hitems⟩
    exact toJson_sequence_iff.2 ⟨vs, rfl, hitems⟩

/-- The texts of the items are those of their values. -/
theorem forall₂_spells_iff {items : List Tree} : List.Forall₂ Spells items texts ↔
    ∃ vs, List.Forall₂ (fun u v => u.toJson = .ok v) items vs ∧
      List.Forall₂ Yaml.Spells vs texts := by
  constructor
  · intro h
    induction h with
    | nil => exact ⟨[], .nil, .nil⟩
    | cons hspells _ ih =>
      obtain ⟨v, hv, htext⟩ := hspells
      obtain ⟨vs, hvs, htexts⟩ := ih
      exact ⟨v :: vs, .cons hv hvs, .cons htext htexts⟩
  · rintro ⟨vs, hvs, htexts⟩
    induction hvs generalizing texts with
    | nil =>
      cases htexts
      exact .nil
    | cons hv _ ih =>
      cases htexts with
      | cons htext htexts => exact .cons ⟨_, hv, htext⟩ (ih htexts)

theorem lists_iff : t.Lists texts ↔ (t.toJson = .ok .null ∧ texts = []) ∨
    ∃ vs, t.toJson = .ok (.arr vs) ∧ List.Forall₂ Yaml.Spells vs texts := by
  simp only [toJson_eq_null_iff, toJson_eq_arr_iff]
  constructor
  · intro h
    cases h with
    | null => exact .inl ⟨.inl rfl, rfl⟩
    | beyond h => exact .inl ⟨.inr h, rfl⟩
    | sequence h =>
      obtain ⟨vs, hvs, htexts⟩ := forall₂_spells_iff.1 h
      exact .inr ⟨vs, ⟨_, rfl, hvs⟩, htexts⟩
  · rintro (⟨rfl | h, rfl⟩ | ⟨vs, ⟨items, rfl, hvs⟩, htexts⟩)
    · exact .null
    · exact .beyond h
    · exact .sequence (forall₂_spells_iff.2 ⟨vs, hvs, htexts⟩)

theorem exists_lists_iff : (∃ texts, t.Lists texts) ↔ t.IsList ∨ t.Beyond := by
  constructor
  · rintro ⟨texts, h⟩
    cases h with
    | null => exact .inl .null
    | beyond h => exact .inr h
    | sequence h =>
      refine .inl (.sequence fun u hu => ?_)
      obtain ⟨s, -, hspells⟩ := exists_mem_of_forall₂ h hu
      exact ⟨s, hspells⟩
  · rintro (h | h)
    · cases h with
      | null => exact ⟨[], .null⟩
      | sequence h =>
        obtain ⟨texts, htexts⟩ := exists_forall₂ h
        exact ⟨texts, .sequence htexts⟩
    · exact ⟨[], .beyond h⟩

end Tree

/-! ## Texts -/

/-- What a text lists: its first document is that of the text without the blanks at its ends. -/
inductive Lists (text : String) : List String → Prop where
  | blank : Text.isBlankText text = true → Lists text []
  | none : trees? (Text.trim text) = some [] → Lists text []
  | first {t : Tree} {rest : List Tree} {texts : List String} :
      trees? (Text.trim text) = some (t :: rest) → t.Lists texts → Lists text texts

theorem parse_eq_ok_iff : parse text = .ok v ↔
    (trees? text = some [] ∧ v = .null) ∨
      ∃ t rest, trees? text = some (t :: rest) ∧ t.toJson = .ok v := by
  unfold parse
  generalize trees? text = loaded
  match loaded with
  | .none => simp
  | some [] => simp [eq_comm]
  | some (t :: rest) => simp

theorem trees?_trim_of_blank (h : Text.isBlankText text = true) :
    trees? (Text.trim text) = some [] := by
  rw [String.isEmpty_iff.1 ((Text.isEmpty_trim_iff text).2 h)]
  rfl

theorem parseList_of_blank (h : Text.isBlankText text = true) : parseList text = .ok [] := by
  unfold parseList
  exact if_pos ((Text.isEmpty_trim_iff text).2 h)

theorem parseList_of_not_blank (h : ¬ Text.isBlankText text = true) :
    parseList text = .ok texts ↔
      (parse (Text.trim text) = .ok .null ∧ texts = []) ∨
        ∃ vs, parse (Text.trim text) = .ok (.arr vs) ∧ List.Forall₂ Spells vs texts := by
  unfold parseList
  dsimp only
  rw [if_neg (mt (Text.isEmpty_trim_iff text).1 h)]
  cases parse (Text.trim text) with
  | error e => simp
  | ok v =>
    cases v with
    | null => simp [eq_comm]
    | arr vs => simp [itemTexts_eq_ok_iff]
    | _ => simp

/-- A text lists these texts if and only if they are what its first document lists. -/
theorem parseList_eq_ok_iff : parseList text = .ok texts ↔ Lists text texts := by
  by_cases hblank : Text.isBlankText text = true
  · rw [parseList_of_blank hblank, Except.ok.injEq]
    constructor
    · rintro rfl
      exact .blank hblank
    · have hdocs := trees?_trim_of_blank hblank
      rintro (_ | _ | ⟨hfirst, -⟩)
      · rfl
      · rfl
      · cases hfirst.symm.trans hdocs
  · rw [parseList_of_not_blank hblank]
    simp only [parse_eq_ok_iff]
    constructor
    · rintro (⟨⟨hdocs, -⟩ | ⟨t, rest, hdocs, hnull⟩, rfl⟩ |
        ⟨vs, ⟨-, hvs⟩ | ⟨t, rest, hdocs, hvs⟩, htexts⟩)
      · exact .none hdocs
      · exact .first hdocs (Tree.lists_iff.2 (.inl ⟨hnull, rfl⟩))
      · cases hvs
      · exact .first hdocs (Tree.lists_iff.2 (.inr ⟨vs, hvs, htexts⟩))
    · rintro (hblank' | hdocs | ⟨hdocs, hlists⟩)
      · exact absurd hblank' hblank
      · exact .inl ⟨.inl ⟨hdocs, trivial⟩, rfl⟩
      · rcases Tree.lists_iff.1 hlists with ⟨hnull, rfl⟩ | ⟨vs, hvs, htexts⟩
        · exact .inl ⟨.inr ⟨_, _, hdocs, hnull⟩, rfl⟩
        · exact .inr ⟨vs, .inr ⟨_, _, hdocs, hvs⟩, htexts⟩

theorem exists_parseList_iff (hdocs : trees? (Text.trim text) = some docs) :
    (∃ texts, parseList text = .ok texts) ↔
      docs = [] ∨ ∃ t rest, docs = t :: rest ∧ (t.IsList ∨ t.Beyond) := by
  simp only [parseList_eq_ok_iff, ← Tree.exists_lists_iff]
  constructor
  · rintro ⟨texts, hblank | hnone | ⟨hfirst, hlists⟩⟩
    · exact .inl (Option.some.inj (hdocs.symm.trans (trees?_trim_of_blank hblank)))
    · exact .inl (Option.some.inj (hdocs.symm.trans hnone))
    · exact .inr ⟨_, _, Option.some.inj (hdocs.symm.trans hfirst), _, hlists⟩
  · rintro (rfl | ⟨t, rest, rfl, texts, hlists⟩)
    · exact ⟨[], .none hdocs⟩
    · exact ⟨texts, .first hdocs hlists⟩

/-- Exactly the documents that are lists are taken for lists, unless the first one is beyond. -/
theorem exists_parseList_iff_isList (hdocs : trees? (Text.trim text) = some docs) :
    ((∃ texts, parseList text = .ok texts) ↔
      docs = [] ∨ ∃ t rest, docs = t :: rest ∧ t.IsList) ↔
    ∀ t rest, docs = t :: rest → ¬ t.Beyond := by
  rw [exists_parseList_iff hdocs]
  constructor
  · rintro h t rest rfl hbeyond
    rcases h.1 (.inr ⟨t, rest, rfl, .inr hbeyond⟩) with hnil | ⟨u, us, hcons, hlist⟩
    · cases hnil
    · cases hcons
      exact hbeyond.not_isList hlist
  · intro hwithin
    refine or_congr_right ⟨?_, ?_⟩
    · rintro ⟨t, rest, rfl, hlist | hbeyond⟩
      · exact ⟨t, rest, rfl, hlist⟩
      · exact absurd hbeyond (hwithin t rest rfl)
    · rintro ⟨t, rest, rfl, hlist⟩
      exact ⟨t, rest, rfl, .inl hlist⟩

/-! ## Main result -/

/-- How a tree is read as a JSON value, and a text as a list. -/
structure ReadingSpec (t : Tree) (text : String) : Prop where
  /-- A tree has no value if and only if one in it has none whatever is around it. -/
  fails_iff : (∃ e, t.toJson = .error e) ↔ ∃ u, Tree.Within u t ∧ u.Foreign
  scalar : ∀ v, t.Scalar v → t.toJson = .ok v
  /-- A sequence keeps its items in order. -/
  sequence : ∀ items, t = .sequence items → ∀ v, t.toJson = .ok v ↔
    ∃ vs, v = .arr vs ∧ List.Forall₂ (fun u w => u.toJson = .ok w) items vs
  /-- A mapping has the members that its keys make, each with the last value of its name. -/
  mapping : ∀ pairs, t = .mapping pairs → ∀ v, t.toJson = .ok v → ∃ ms : Fields Value,
    v = .obj ms ∧ ms.Sorted ∧
      (∀ key, (∃ w, ms.get? key = some w) ↔ ∃ p ∈ pairs, p.1.Names key) ∧
      ∀ key w, ms.get? key = some w ↔ ∃ u, Tree.Last pairs key u ∧ u.toJson = .ok w
  /-- A tree that writes down a JSON value is read as this value, however floats are written. -/
  embeds : ∀ write, Tree.ReadsBack write → ∀ v : Value, v.Proper →
    t = Tree.ofJson write v → t.toJson = .ok v
  /-- Floats may be written as plain decimals. -/
  plain : Tree.ReadsBack Decimal.plainText
  lists_iff : ∀ texts, parseList text = .ok texts ↔ Lists text texts
  /-- A text of some documents is a list if there are none, or else the first one is. -/
  list_iff : ∀ docs, trees? (Text.trim text) = some docs →
    ((∃ texts, parseList text = .ok texts) ↔
      docs = [] ∨ ∃ u rest, docs = u :: rest ∧ (u.IsList ∨ u.Beyond))
  blank : Text.isBlankText text = true → trees? (Text.trim text) = some []
  /-- Only a real beyond the range of floats is taken for a list and is none. -/
  faithful_iff : ∀ docs, trees? (Text.trim text) = some docs →
    (((∃ texts, parseList text = .ok texts) ↔
      docs = [] ∨ ∃ u rest, docs = u :: rest ∧ u.IsList) ↔
    ∀ u rest, docs = u :: rest → ¬ u.Beyond)

theorem reading_spec (t : Tree) (text : String) : ReadingSpec t text where
  fails_iff := t.exists_error_iff
  scalar _ := Tree.Scalar.toJson
  sequence items h v := h ▸ Tree.toJson_sequence_iff
  mapping pairs heq v h := by
    subst heq
    obtain ⟨ms, rfl, hmakes⟩ := Tree.toJson_mapping_iff.1 h
    exact ⟨Fields.ofPairs ms, rfl, Fields.sorted_ofPairs ms, fun _ => Tree.exists_get?_iff hmakes,
      fun _ _ => Tree.get?_iff_last hmakes⟩
  embeds write hwrite v hv h := h ▸ Tree.toJson_ofJson hwrite v hv
  plain := Tree.readsBack_plainText
  lists_iff _ := parseList_eq_ok_iff
  list_iff _ := exists_parseList_iff
  blank := trees?_trim_of_blank
  faithful_iff _ := exists_parseList_iff_isList

/-- A number beyond the range of floats lists nothing, as if it were an empty document. -/
theorem parseList_of_huge : ∃ t, trees? (Text.trim "1e400") = some [t] ∧ t.Beyond ∧ ¬ t.IsList ∧
    parseList "1e400" = .ok [] := by
  have hlisted : parseList "1e400" = .ok [] := by decide +kernel
  have hnames : (trees? (Text.trim "1e400")).map (List.map Tree.keyText?) =
      some [some "1e400"] := by decide +kernel
  obtain ⟨docs, hdocs, hmap⟩ := Option.map_eq_some_iff.1 hnames
  obtain ⟨t, rfl, hname⟩ := List.map_eq_singleton_iff.1 hmap
  have hnot : ¬ t.IsList := by
    intro h
    cases h with
    | null => exact absurd hname (by decide)
    | sequence => cases hname
  rcases (exists_parseList_iff hdocs).1 ⟨[], hlisted⟩ with hnil | ⟨u, rest, hcons, hlist | hbeyond⟩
  · cases hnil
  · cases hcons
    exact absurd hlist hnot
  · cases hcons
    exact ⟨t, hdocs, hbeyond, hnot, hlisted⟩

end Yaml

end ClusterJobs
