import GqlScan.Proofs.Places
import GqlScan.Connector

/-!
# Shapes of connector documents

What a connector document asks for, said of the values that a library makes of it: which values
count as absent, which value a mapping holds under a key, which entries a kind has. Every part has a
judgment and a lemma by which the executed reading comes to the judgment.

Main statements: `asks_iff` and `requests_eq_iff`.
-/

namespace GqlScan.Connector

open Text

variable {V : Type} (yaml : Yaml.Library V)

/-! ## Values -/

/-- A value that counts as absent: null, and all that is empty or not true. -/
inductive Falsy : Yaml.View V → Prop where
  | null : Falsy .null
  | text : Falsy (.str [])
  | list : Falsy (.list [])
  | map : Falsy (.map [])
  | other {type : Text} : Falsy (.other type false)

theorem isFalsy_iff {v : V} : yaml.isFalsy v = true ↔ Falsy (yaml.view v) := by
  unfold Yaml.Library.isFalsy
  constructor
  · intro h
    cases hview : yaml.view v with
    | null => exact .null
    | str t =>
      rw [hview] at h
      rw [List.isEmpty_iff.1 h]
      exact .text
    | list items =>
      rw [hview] at h
      rw [List.isEmpty_iff.1 h]
      exact .list
    | map entries =>
      rw [hview] at h
      rw [List.isEmpty_iff.1 h]
      exact .map
    | other type truthy =>
      rw [hview] at h
      cases truthy with
      | true => cases h
      | false => exact .other
  · intro h
    cases hview : yaml.view v <;> rw [hview] at h <;> cases h <;> rfl

/-- A mapping holds a value under a text: the value of the first key that is this text, unless that
value is null. -/
def Holds (name : Text) (fields : List (V × V)) (v : V) : Prop :=
  ∃ before key later, fields = before ++ (key, v) :: later
    ∧ yaml.view key = .str (Points.ofText name)
    ∧ (∀ field ∈ before, yaml.view field.1 ≠ .str (Points.ofText name))
    ∧ yaml.view v ≠ .null

/-- What a mapping holds under a text, if it holds anything. -/
def Under (name : Text) (fields : List (V × V)) (v? : Option V) : Prop :=
  ∀ v, v? = some v ↔ Holds yaml name fields v

theorem isKey_iff {name : Text} {key : V} :
    yaml.isKey name key = true ↔ yaml.view key = .str (Points.ofText name) := by
  unfold Yaml.Library.isKey
  cases hview : yaml.view key with
  | str t => exact beq_iff_eq.trans ⟨congrArg Yaml.View.str, Yaml.View.str.inj⟩
  | _ => exact iff_of_false Bool.false_ne_true nofun

theorem isNull_iff {v : V} : yaml.isNull v = true ↔ yaml.view v = .null := by
  unfold Yaml.Library.isNull
  cases hview : yaml.view v with
  | null => exact iff_of_true rfl rfl
  | _ => exact iff_of_false Bool.false_ne_true nofun

theorem field?_eq_some_iff {name : Text} {fields : List (V × V)} {v : V} :
    yaml.field? name fields = some v ↔ Holds yaml name fields v := by
  have hother : ∀ {field : V × V}, (!yaml.isKey name field.1) = true
      ↔ yaml.view field.1 ≠ .str (Points.ofText name) := by
    intro field
    rw [Bool.not_eq_true', ← Bool.not_eq_true, isKey_iff]
  have hnull : ∀ w, (!yaml.isNull w) = true ↔ yaml.view w ≠ .null := by
    intro w
    rw [Bool.not_eq_true', ← Bool.not_eq_true, isNull_iff]
  unfold Yaml.Library.field? Holds
  rw [Option.filter_eq_some_iff, Option.map_eq_some_iff, hnull]
  constructor
  · rintro ⟨⟨⟨key, w⟩, hfound, rfl⟩, hv⟩
    obtain ⟨hkey, before, later, rfl, hbefore⟩ := List.find?_eq_some_iff_append.1 hfound
    exact ⟨before, key, later, rfl, (isKey_iff yaml).1 hkey,
      fun field hfield => hother.1 (hbefore field hfield), hv⟩
  · rintro ⟨before, key, later, rfl, hkey, hbefore, hv⟩
    refine ⟨⟨(key, v), List.find?_eq_some_iff_append.2 ?_, rfl⟩, hv⟩
    exact ⟨(isKey_iff yaml).2 hkey, before, later, rfl,
      fun field hfield => hother.2 (hbefore field hfield)⟩

/-- There is one answer to what a mapping holds under a text, and it is what is found there. -/
theorem field?_eq_iff {name : Text} {fields : List (V × V)} {v? : Option V} :
    yaml.field? name fields = v? ↔ Under yaml name fields v? := by
  constructor
  · rintro rfl v
    exact field?_eq_some_iff yaml
  · intro h
    exact Option.ext fun v => (field?_eq_some_iff yaml).trans (h v).symm

/-! ## Entries -/

/-- The entries of a kind: the members of a list, or the value itself. -/
inductive Entries : V → List V → Prop where
  | list {v : V} {items : List V} : yaml.view v = .list items → Entries v items
  | single {v : V} : (∀ items, yaml.view v ≠ .list items) → Entries v [v]

theorem entriesOf_eq_iff {v : V} {entries : List V} :
    entriesOf yaml v = entries ↔ Entries yaml v entries := by
  unfold entriesOf
  constructor
  · rintro rfl
    cases hview : yaml.view v with
    | list items => exact .list hview
    | _ => exact .single (hview ▸ nofun)
  · intro h
    cases h with
    | list hview => rw [hview]
    | single hview =>
      split
      · rename_i items hlist
        exact absurd hlist (hview items)
      · rfl

/-- What some kinds ask for: entry by entry, each with its kind, in the order of the file. -/
inductive Requests : List (V × V) → List (V × V) → Prop where
  | nil : Requests [] []
  | cons {kind v : V} {entries : List V} {kinds requests : List (V × V)} :
      Entries yaml v entries → Requests kinds requests →
      Requests ((kind, v) :: kinds) (entries.map (fun entry => (kind, entry)) ++ requests)

theorem requests_cons (item : V × V) (kinds : List (V × V)) :
    requests yaml (item :: kinds)
      = (entriesOf yaml item.2).map (fun entry => (item.1, entry)) ++ requests yaml kinds := rfl

theorem requests_eq_iff {kinds found : List (V × V)} :
    requests yaml kinds = found ↔ Requests yaml kinds found := by
  constructor
  · rintro rfl
    induction kinds with
    | nil => exact .nil
    | cons item kinds ih => exact .cons ((entriesOf_eq_iff yaml).1 rfl) ih
  · intro h
    induction h with
    | nil => rfl
    | cons hentries _ ih => rw [requests_cons, ih, (entriesOf_eq_iff yaml).2 hentries]

/-! ## Documents -/

/-- A document and the entries at its top level; null has none. -/
inductive TopLevel : V → List (V × V) → Prop where
  | null {v : V} : yaml.view v = .null → TopLevel v []
  | map {v : V} {fields : List (V × V)} : yaml.view v = .map fields → TopLevel v fields

/-- What stands under `generate` and the kinds that it lists; all that is falsy lists none. -/
inductive Lists : Option V → List (V × V) → Prop where
  | absent : Lists none []
  | falsy {v : V} : Falsy (yaml.view v) → Lists (some v) []
  | map {v : V} {kinds : List (V × V)} : yaml.view v = .map kinds → Lists (some v) kinds

theorem topLevel?_eq_some_iff {v : V} {fields : List (V × V)} :
    topLevel? yaml v = some fields ↔ TopLevel yaml v fields := by
  unfold topLevel?
  constructor
  · intro h
    cases hview : yaml.view v with
    | null =>
      rw [hview] at h
      cases h
      exact .null hview
    | map found =>
      rw [hview] at h
      cases h
      exact .map hview
    | _ =>
      rw [hview] at h
      cases h
  · intro h
    cases h with
    | null hview => rw [hview]
    | map hview => rw [hview]

theorem kinds?_eq_some_iff {v? : Option V} {kinds : List (V × V)} :
    kinds? yaml v? = some kinds ↔ Lists yaml v? kinds := by
  unfold kinds?
  constructor
  · intro h
    split at h
    · cases h
      exact .absent
    · split at h
      · rename_i hfalsy
        cases h
        exact .falsy ((isFalsy_iff yaml).1 hfalsy)
      · split at h
        · rename_i hview
          cases h
          exact .map hview
        · cases h
  · intro h
    cases h with
    | absent => rfl
    | falsy hfalsy => exact if_pos ((isFalsy_iff yaml).2 hfalsy)
    | map hview =>
      -- a mapping lists its entries also when it has none and counts as falsy
      dsimp only
      split
      · rename_i hfalsy
        rw [isFalsy_iff, hview] at hfalsy
        cases hfalsy
        rfl
      · rw [hview]

/-- **A document asks for some kinds,** those that it lists under `generate`. -/
inductive Asks : V → List (V × V) → Prop where
  | intro {v : V} {fields kinds : List (V × V)} {generate? : Option V} :
      TopLevel yaml v fields → Under yaml "generate".toList fields generate? →
      Lists yaml generate? kinds → Asks v kinds

/-- The kinds that a document asks for are those that are read. -/
theorem asks_iff {v : V} {kinds : List (V × V)} :
    Asks yaml v kinds ↔ ∃ fields, topLevel? yaml v = some fields
      ∧ kinds? yaml (yaml.field? "generate".toList fields) = some kinds := by
  simp only [topLevel?_eq_some_iff, kinds?_eq_some_iff]
  constructor
  · rintro ⟨htop, hunder, hlists⟩
    rw [← (field?_eq_iff yaml).2 hunder] at hlists
    exact ⟨_, htop, hlists⟩
  · rintro ⟨fields, htop, hlists⟩
    exact .intro htop ((field?_eq_iff yaml).1 rfl) hlists

/-! ## Output directories -/

/-- A value asks for no output directory, or it is a text in which every code point can stand in the
name of a file. -/
def NamesDirectory (v : V) : Prop :=
  Falsy (yaml.view v) ∨ ∃ t, yaml.view v = .str t ∧ ∀ p ∈ t, ¬ p.Unfit

/-- An entry that gives a target: null, or a mapping with no output directory or one that can be. -/
inductive Passes : V → Prop where
  | null {entry : V} : yaml.view entry = .null → Passes entry
  | map {entry : V} {fields : List (V × V)} : yaml.view entry = .map fields →
      (∀ v, Holds yaml "outputDir".toList fields v → NamesDirectory yaml v) → Passes entry

/-- An entry that is a mapping. -/
def IsMapping (entry : V) : Prop := ∃ fields, yaml.view entry = .map fields

theorem passes_iff_of_map {entry : V} {fields : List (V × V)} (h : yaml.view entry = .map fields) :
    Passes yaml entry ↔ ∀ v, Holds yaml "outputDir".toList fields v → NamesDirectory yaml v := by
  constructor
  · intro hpasses
    cases hpasses with
    | null hview =>
      rw [h] at hview
      cases hview
    | map hview hdirectory =>
      rw [h] at hview
      cases hview
      exact hdirectory
  · exact .map h

end GqlScan.Connector
