import SeedLogic.Resolution

/-!
# The rules for atoms

An atom is classified by the first rule that applies. Each meaning is listed here with all that has
been checked on the way to it, so that two classifications can be compared rule by rule. The
expansion of an atom depends on its meaning alone, together with the tables and the mode.

## Main definitions

* `Resolution.ItemLike` : atoms that stand for an item or a boss.
* `Resolution.Classified` : the meanings of an atom, with the rules that do not apply.
* `AtomMeaning.expansion` : what replaces an atom with a given meaning.

## Main results

* `Resolution.classify_eq_ok_iff` : the classification follows the rules.
* `Resolution.expansion_eq_ok_iff` : an expansion is that of the meaning.
-/

namespace SeedLogic

/-! ### Meanings -/

namespace Resolution

/-- An atom that stands for an item or a boss: no macro, conditional or reference to a location, and
no item that the settings fix. -/
structure ItemLike (r : Resolution) (flattened : Bool) (atom : String) : Prop where
  not_macro : r.data.macroText? atom = none
  not_conditional : Conditional.parse? atom = none
  not_reference : locationReference? flattened atom = none
  not_predetermined : r.predetermined.classify (ItemRequirement.parse atom) = none

/-- The meaning of an atom by the first rule that applies to it. -/
inductive Classified (r : Resolution) (flattened : Bool) (atom : String) : AtomMeaning → Prop
  | macroText {requirement : String} (hdefined : r.data.macroText? atom = some requirement) :
      Classified r flattened atom (.macroText requirement)
  | conditional {conditional : Conditional} (hdefined : r.data.macroText? atom = none)
      (hparse : Conditional.parse? atom = some conditional) :
      Classified r flattened atom (.conditional (conditional.holds r.settings))
  | otherLocation {location general detailed : String} (hdefined : r.data.macroText? atom = none)
      (hparse : Conditional.parse? atom = none)
      (hreference : locationReference? flattened atom = some location)
      (hsplit : splitLocationName location = .ok (general, detailed)) :
      Classified r flattened atom (.otherLocation general detailed)
  | predetermined {outcome : Predetermined} (hdefined : r.data.macroText? atom = none)
      (hparse : Conditional.parse? atom = none)
      (hreference : locationReference? flattened atom = none)
      (hitem : r.predetermined.classify (ItemRequirement.parse atom) = some outcome) :
      Classified r flattened atom (.predetermined outcome)
  | boss {boss : RequiredBoss} (hatom : r.ItemLike flattened atom)
      (hboss : r.data.bossOfRequirement? atom = some boss) :
      Classified r flattened atom (.boss (r.bossMeaning flattened boss))
  | plainItem (hatom : r.ItemLike flattened atom)
      (hboss : r.data.bossOfRequirement? atom = none) : Classified r flattened atom .plainItem

variable {r : Resolution} {flattened : Bool} {atom : String} {meaning : AtomMeaning}

/-- The first rule that applies gives the meaning of an atom. -/
theorem Classified.classify_eq (h : r.Classified flattened atom meaning) :
    r.classify flattened atom = .ok meaning := by
  cases h with
  | macroText hdefined => simp only [classify, hdefined, pure, Except.pure]
  | conditional hdefined hparse => simp only [classify, hdefined, hparse, pure, Except.pure]
  | otherLocation hdefined hparse hreference hsplit =>
    simp only [classify, hdefined, hparse, hreference, hsplit]
    rfl
  | predetermined hdefined hparse hreference hitem =>
    simp only [classify, hdefined, hparse, hreference, hitem, pure, Except.pure]
  | boss hatom hboss =>
    simp only [classify, hatom.not_macro, hatom.not_conditional, hatom.not_reference,
      hatom.not_predetermined, hboss, pure, Except.pure]
  | plainItem hatom hboss =>
    simp only [classify, hatom.not_macro, hatom.not_conditional, hatom.not_reference,
      hatom.not_predetermined, hboss, pure, Except.pure]

/-- A rule applies to every atom, unless it refers to a location by a name that is malformed. -/
theorem classify_verdict (r : Resolution) (flattened : Bool) (atom : String) :
    (∃ meaning, r.Classified flattened atom meaning) ∨
      ∃ location e, splitLocationName location = .error e ∧
        r.classify flattened atom = .error e := by
  cases hdefined : r.data.macroText? atom with
  | some requirement => exact .inl ⟨_, .macroText hdefined⟩
  | none =>
  cases hparse : Conditional.parse? atom with
  | some conditional => exact .inl ⟨_, .conditional hdefined hparse⟩
  | none =>
  cases hreference : locationReference? flattened atom with
  | some location =>
    cases hsplit : splitLocationName location with
    | error e =>
      refine .inr ⟨location, e, hsplit, ?_⟩
      simp only [classify, hdefined, hparse, hreference, hsplit]
      rfl
    | ok halves => exact .inl ⟨_, .otherLocation hdefined hparse hreference hsplit⟩
  | none =>
  cases hitem : r.predetermined.classify (ItemRequirement.parse atom) with
  | some outcome => exact .inl ⟨_, .predetermined hdefined hparse hreference hitem⟩
  | none =>
  have hatom : r.ItemLike flattened atom := ⟨hdefined, hparse, hreference, hitem⟩
  cases hboss : r.data.bossOfRequirement? atom with
  | some boss => exact .inl ⟨_, .boss hatom hboss⟩
  | none => exact .inl ⟨_, .plainItem hatom hboss⟩

/-- The classification of an atom follows the rules. -/
theorem classify_eq_ok_iff :
    r.classify flattened atom = .ok meaning ↔ r.Classified flattened atom meaning := by
  refine ⟨fun h => ?_, Classified.classify_eq⟩
  rcases r.classify_verdict flattened atom with ⟨meaning', hc⟩ | ⟨location, e, -, herror⟩
  · obtain rfl := Except.ok.inj (hc.classify_eq.symm.trans h)
    exact hc
  · rw [herror] at h
    cases h

/-- An atom without a meaning refers to a location by a name that is malformed. -/
theorem exists_split_of_classify_error {e : LogicError}
    (h : r.classify flattened atom = .error e) :
    ∃ location, splitLocationName location = .error e := by
  rcases r.classify_verdict flattened atom with ⟨meaning, hc⟩ | ⟨location, e', hsplit, herror⟩
  · rw [hc.classify_eq] at h
    cases h
  · obtain rfl := Except.error.inj (herror.symm.trans h)
    exact ⟨location, hsplit⟩

/-- An atom has one meaning at most. -/
theorem Classified.unique {meaning' : AtomMeaning} (h : r.Classified flattened atom meaning)
    (h' : r.Classified flattened atom meaning') : meaning = meaning' :=
  Except.ok.inj (h.classify_eq.symm.trans h'.classify_eq)

end Resolution

/-! ### Expansions -/

/-- What replaces an atom with a given meaning. -/
def AtomMeaning.expansion (data : GameData) (flattened : Bool) (atom : String) :
    AtomMeaning → Except LogicError Resolution.Expansion
  | .macroText requirement => .ok (.requirement requirement)
  | .otherLocation general detailed => .ok (.location general detailed flattened)
  | .boss (.substitute dungeon) => do
    let detailed ← data.bossLocation dungeon
    pure (.location dungeon detailed true)
  | .conditional true => .ok (.tree .nothing)
  | .conditional false => .ok (.tree .impossible)
  | .predetermined .satisfied => .ok (.tree .nothing)
  | .predetermined .unsatisfiable => .ok (.tree .impossible)
  | .boss .notRequired => .ok (.tree .nothing)
  | .boss .opaqueLeaf => .ok (.tree (.leaf atom))
  | .plainItem => .ok (.tree (.leaf atom))

namespace AtomMeaning

variable {data : GameData} {flattened : Bool} {atom : String} {meaning : AtomMeaning}

/-- A boss that is substituted is replaced by the tree of its location. -/
theorem expansion_substitute_eq_ok_iff {dungeon : String} {expansion : Resolution.Expansion} :
    (boss (.substitute dungeon)).expansion data flattened atom = .ok expansion ↔
      ∃ detailed, data.bossLocation dungeon = .ok detailed ∧
        .location dungeon detailed true = expansion := by
  rw [AtomMeaning.expansion]
  cases data.bossLocation dungeon with
  | error e => exact iff_of_false nofun nofun
  | ok detailed => simp [bind, Except.bind, pure, Except.pure]

/-- A boss that is substituted has no expansion when it has no location. -/
theorem expansion_substitute_eq_error_iff {dungeon : String} {e : LogicError} :
    (boss (.substitute dungeon)).expansion data flattened atom = .error e ↔
      data.bossLocation dungeon = .error e := by
  rw [AtomMeaning.expansion]
  cases data.bossLocation dungeon with
  | error e' => simp [bind, Except.bind]
  | ok detailed => exact iff_of_false nofun nofun

/-- An atom is replaced by a finished tree when it is decided or kept as a leaf. -/
theorem of_expansion_eq_tree {t : Requirement}
    (h : meaning.expansion data flattened atom = .ok (.tree t)) :
    t = .nothing ∨ t = .impossible ∨
      t = .leaf atom ∧ (meaning = .plainItem ∨ meaning = .boss .opaqueLeaf) := by
  cases meaning with
  | macroText requirement => cases h
  | otherLocation general detailed => cases h
  | conditional holds =>
    cases holds with
    | true =>
      cases h
      exact Or.inl rfl
    | false =>
      cases h
      exact Or.inr (Or.inl rfl)
  | predetermined outcome =>
    cases outcome with
    | satisfied =>
      cases h
      exact Or.inl rfl
    | unsatisfiable =>
      cases h
      exact Or.inr (Or.inl rfl)
  | boss boss =>
    cases boss with
    | notRequired =>
      cases h
      exact Or.inl rfl
    | substitute dungeon =>
      obtain ⟨_, -, hlocation⟩ := expansion_substitute_eq_ok_iff.1 h
      cases hlocation
    | opaqueLeaf =>
      cases h
      exact Or.inr (Or.inr ⟨rfl, Or.inr rfl⟩)
  | plainItem =>
    cases h
    exact Or.inr (Or.inr ⟨rfl, Or.inl rfl⟩)

/-- An atom is replaced by the tree of a location in its own mode, unless it is a boss that is
substituted. -/
theorem of_expansion_eq_location {general detailed : String} {mode : Bool}
    (h : meaning.expansion data flattened atom = .ok (.location general detailed mode)) :
    mode = flattened ∨ mode = true ∧ ∃ dungeon, meaning = .boss (.substitute dungeon) := by
  cases meaning with
  | macroText requirement => cases h
  | otherLocation general detailed =>
    cases h
    exact Or.inl rfl
  | conditional holds => cases holds <;> cases h
  | predetermined outcome => cases outcome <;> cases h
  | boss boss =>
    cases boss with
    | notRequired => cases h
    | substitute dungeon =>
      obtain ⟨_, -, hlocation⟩ := expansion_substitute_eq_ok_iff.1 h
      cases hlocation
      exact Or.inr ⟨rfl, _, rfl⟩
    | opaqueLeaf => cases h
  | plainItem => cases h

/-- An atom whose meaning has no expansion is a boss that is substituted and has no location. -/
theorem of_expansion_eq_error {e : LogicError}
    (h : meaning.expansion data flattened atom = .error e) :
    ∃ dungeon, meaning = .boss (.substitute dungeon) ∧ data.bossLocation dungeon = .error e := by
  cases meaning with
  | macroText requirement => cases h
  | otherLocation general detailed => cases h
  | conditional holds => cases holds <;> cases h
  | predetermined outcome => cases outcome <;> cases h
  | boss boss =>
    cases boss with
    | notRequired => cases h
    | substitute dungeon => exact ⟨dungeon, rfl, expansion_substitute_eq_error_iff.1 h⟩
    | opaqueLeaf => cases h
  | plainItem => cases h

end AtomMeaning

namespace Resolution

variable {r : Resolution} {flattened : Bool} {atom : String} {meaning : AtomMeaning}
  {expansion : Expansion}

/-- An atom that has a meaning is expanded by it. -/
theorem expansion_of_classify (h : r.classify flattened atom = .ok meaning) :
    r.expansion flattened atom = meaning.expansion r.data flattened atom := by
  rw [Resolution.expansion, h]
  cases meaning with
  | conditional holds => cases holds <;> rfl
  | predetermined outcome => cases outcome <;> rfl
  | boss boss =>
    cases boss <;> rfl
  | _ => rfl

/-- An expansion is that of the meaning of the atom. -/
theorem expansion_eq_ok_iff :
    r.expansion flattened atom = .ok expansion ↔
      ∃ meaning, r.Classified flattened atom meaning ∧
        meaning.expansion r.data flattened atom = .ok expansion := by
  constructor
  · intro h
    cases hclassify : r.classify flattened atom with
    | error e =>
      rw [Resolution.expansion, hclassify] at h
      cases h
    | ok meaning =>
      rw [expansion_of_classify hclassify] at h
      exact ⟨meaning, classify_eq_ok_iff.1 hclassify, h⟩
  · rintro ⟨meaning, hclassified, h⟩
    rw [expansion_of_classify hclassified.classify_eq, h]

/-- A boss is kept when it is required, outside flattened mode. -/
theorem bossMeaning_eq_opaqueLeaf_iff {boss : RequiredBoss} :
    r.bossMeaning flattened boss = .opaqueLeaf ↔
      flattened = false ∧ r.notRequired.contains boss.dungeon = false := by
  cases flattened <;> cases hcontains : r.notRequired.contains boss.dungeon <;>
    simp only [bossMeaning, hcontains] <;> simp

/-- A boss is substituted when it is required, in flattened mode. -/
theorem bossMeaning_eq_substitute_iff {boss : RequiredBoss} {dungeon : String} :
    r.bossMeaning flattened boss = .substitute dungeon ↔
      flattened = true ∧ r.notRequired.contains boss.dungeon = false ∧ boss.dungeon = dungeon := by
  cases flattened <;> cases hcontains : r.notRequired.contains boss.dungeon <;>
    simp only [bossMeaning, hcontains] <;> simp

/-- An atom that stands for a boss has the meaning of that boss. -/
theorem Classified.exists_boss {boss : BossMeaning}
    (h : r.Classified flattened atom (.boss boss)) :
    r.ItemLike flattened atom ∧ ∃ required, r.data.bossOfRequirement? atom = some required ∧
      r.bossMeaning flattened required = boss := by
  generalize hmeaning : AtomMeaning.boss boss = meaning at h
  cases h with
  | boss hatom hboss => exact ⟨hatom, _, hboss, (AtomMeaning.boss.inj hmeaning).symm⟩
  | _ => cases hmeaning

/-- A reference that has a meaning refers to a location by both of its names. -/
theorem Classified.exists_split {location : String} (h : r.Classified flattened atom meaning)
    (hdefined : r.data.macroText? atom = none) (hparse : Conditional.parse? atom = none)
    (hreference : locationReference? flattened atom = some location) :
    ∃ general detailed, splitLocationName location = .ok (general, detailed) ∧
      meaning = .otherLocation general detailed := by
  have hnot : locationReference? flattened atom ≠ none := by simp [hreference]
  cases h with
  | macroText hdefined' => exact absurd (hdefined.symm.trans hdefined') nofun
  | conditional _ hparse' => exact absurd (hparse.symm.trans hparse') nofun
  | otherLocation _ _ hreference' hsplit =>
    obtain rfl := Option.some.inj (hreference.symm.trans hreference')
    exact ⟨_, _, hsplit, rfl⟩
  | predetermined _ _ hreference' => exact absurd hreference' hnot
  | boss hatom => exact absurd hatom.not_reference hnot
  | plainItem hatom => exact absurd hatom.not_reference hnot

/-- An atom is replaced by the tree of a location in its own mode only. -/
theorem flattened_of_expansion {general detailed : String} {mode : Bool}
    (h : r.expansion flattened atom = .ok (.location general detailed mode)) :
    mode = flattened := by
  obtain ⟨meaning, hclassified, hmeaning⟩ := expansion_eq_ok_iff.1 h
  rcases AtomMeaning.of_expansion_eq_location hmeaning with hmode | ⟨hmode, dungeon, rfl⟩
  · exact hmode
  · obtain ⟨-, required, -, hboss⟩ := hclassified.exists_boss
    rw [hmode, (bossMeaning_eq_substitute_iff.1 hboss).1]

end Resolution

end SeedLogic
