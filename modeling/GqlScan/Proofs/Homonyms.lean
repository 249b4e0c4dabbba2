import GqlScan.Proofs.Registration

/-!
# Nested selections that share a type name

The name made up for a nested selection runs owner and field name together, so two selections of
one operation can get the same name, and registering the second replaces the first. The nested
types then say of the name what the last selection says.

Main statement: `get?_nestedTypes_last`, which selection is found under the type of a field, and
that every field finds its own exactly when fields of one type have like selections.
-/

namespace GqlScan

open Text

/-! ## Looking up what was registered -/

namespace NestedTypes

theorem lookup_put (name m : Text) (fields : List Field) (entries : List (Text × List Field)) :
    (put name fields entries).lookup m
      = if m = name then some fields else entries.lookup m := by
  induction entries with
  | nil =>
    unfold put
    by_cases hm : m = name
    · rw [if_pos hm, hm, List.lookup_cons_self]
    · have hb : (m == name) = false := beq_eq_false_iff_ne.2 hm
      rw [if_neg hm, List.lookup_cons, hb]
  | cons entry rest ih =>
    obtain ⟨k, fs⟩ := entry
    unfold put
    by_cases hk : k = name
    · rw [if_pos hk]
      by_cases hm : m = name
      · rw [if_pos hm, hm, List.lookup_cons_self]
      · have hb : (m == name) = false := beq_eq_false_iff_ne.2 hm
        rw [if_neg hm, List.lookup_cons, List.lookup_cons, hk, hb]
    · rw [if_neg hk, List.lookup_cons, List.lookup_cons, ih]
      by_cases hm : m = name
      · have hb : (m == k) = false := beq_eq_false_iff_ne.2 fun e => hk (e ▸ hm)
        rw [if_pos hm, hb, if_pos hm]
      · rw [if_neg hm, if_neg hm]

/-- Registering a name changes what is found under it, and nothing else. -/
theorem get?_register (types : NestedTypes) (name m : Text) (fields : List Field) :
    (types.register name fields).get? m = if m = name then some fields else types.get? m :=
  lookup_put name m fields types.entries

/-- Selections under other names leave a name alone. -/
theorem get?_registerAll_of_ne {m : Text} {shapes : List (Text × List Field)}
    (h : ∀ s ∈ shapes, s.1 ≠ m) (types : NestedTypes) :
    (types.registerAll shapes).get? m = types.get? m := by
  induction shapes generalizing types with
  | nil => rfl
  | cons s shapes ih =>
    have hs : m ≠ s.1 := fun e => h s List.mem_cons_self e.symm
    rw [registerAll_cons, ih (fun s' hs' => h s' (List.mem_cons_of_mem s hs')), get?_register,
      if_neg hs]

/-- Under a name stands what was registered last. -/
theorem get?_registerAll_last {xs ys : List (Text × List Field)} {s : Text × List Field}
    (h : ∀ y ∈ ys, y.1 ≠ s.1) (types : NestedTypes) :
    (types.registerAll (xs ++ s :: ys)).get? s.1 = some s.2 := by
  rw [registerAll_append, registerAll_cons, get?_registerAll_of_ne h, get?_register, if_pos rfl]

end NestedTypes

/-! ## Fields at any depth -/

namespace Field

/-- A field stands somewhere in some fields: among them, or in the selections of one of them. -/
inductive Within (f : Field) : List Field → Prop where
  | among {fs : List Field} : f ∈ fs → Within f fs
  | under {fs : List Field} {g : Field} : g ∈ fs → Within f g.selections → Within f fs

theorem Within.mono {f : Field} {fs gs : List Field} (h : Within f fs)
    (hsub : ∀ g ∈ fs, g ∈ gs) : Within f gs := by
  cases h with
  | among hf => exact .among (hsub f hf)
  | under hg hw => exact .under (hsub _ hg) hw

theorem mem_nestedAll_of_mem {f g : Field} {fs : List Field} (hg : g ∈ fs)
    (hf : f ∈ nested g) : f ∈ nestedAll fs := by
  induction fs with
  | nil => cases hg
  | cons x fs ih =>
    rw [nestedAll_cons, List.mem_append]
    rcases List.mem_cons.1 hg with h | h
    · exact Or.inl (h ▸ hf)
    · exact Or.inr (ih h)

mutual

theorem within_of_mem_nested (f : Field) :
    (g : Field) → f ∈ nested g → f.selections ≠ [] ∧ (f = g ∨ Within f g.selections)
  | ⟨name, type, selections⟩, h => by
    rw [nested, List.mem_append] at h
    rcases h with h | h
    · obtain ⟨hne, hw⟩ := within_of_mem_nestedAll f selections h
      exact ⟨hne, Or.inr hw⟩
    · split at h
      · cases h
      · rename_i hs
        have he := List.mem_singleton.1 h
        refine ⟨fun hnil => hs ?_, Or.inl he⟩
        rw [he] at hnil
        exact List.isEmpty_iff.2 hnil

theorem within_of_mem_nestedAll (f : Field) :
    (fs : List Field) → f ∈ nestedAll fs → f.selections ≠ [] ∧ Within f fs
  | [], h => by rw [nestedAll] at h; cases h
  | g :: fs, h => by
    rw [nestedAll, List.mem_append] at h
    rcases h with h | h
    · obtain ⟨hne, he | hw⟩ := within_of_mem_nested f g h
      · exact ⟨hne, .among (he ▸ List.mem_cons_self)⟩
      · exact ⟨hne, .under List.mem_cons_self hw⟩
    · obtain ⟨hne, hw⟩ := within_of_mem_nestedAll f fs h
      exact ⟨hne, hw.mono fun x hx => List.mem_cons_of_mem g hx⟩

end

/-- A field with selections stands somewhere in some fields. -/
def NestedIn (f : Field) (fs : List Field) : Prop := f.Within fs ∧ f.selections ≠ []

/-- The nested selections of some fields are the fields with selections at any depth. -/
theorem mem_nestedAll_iff {f : Field} {fs : List Field} :
    f ∈ nestedAll fs ↔ f.NestedIn fs := by
  constructor
  · intro h
    obtain ⟨hne, hw⟩ := within_of_mem_nestedAll f fs h
    exact ⟨hw, hne⟩
  · rintro ⟨hw, hne⟩
    induction hw with
    | among hf =>
      refine mem_nestedAll_of_mem hf ?_
      rw [nested_eq, if_neg (fun h => hne (List.isEmpty_iff.1 h)), List.mem_append]
      exact Or.inr List.mem_cons_self
    | @under fs g hg _ ih =>
      refine mem_nestedAll_of_mem hg ?_
      rw [nested_eq, List.mem_append]
      exact Or.inl ih

/-- If some field has a type, one of them is the last that has it. -/
theorem exists_last_of_type {t : Text} {fs : List Field} (h : ∃ f ∈ fs, f.type = t) :
    ∃ xs g ys, fs = xs ++ g :: ys ∧ g.type = t ∧ ∀ y ∈ ys, y.type ≠ t := by
  induction fs with
  | nil =>
    obtain ⟨f, hf, _⟩ := h
    cases hf
  | cons x fs ih =>
    -- the first field is the last one of its type only when no later one has the type
    by_cases hlater : ∃ y ∈ fs, y.type = t
    · obtain ⟨xs, g, ys, he, hg, hys⟩ := ih hlater
      exact ⟨x :: xs, g, ys, by rw [he, List.cons_append], hg, hys⟩
    · have hx : x.type = t := by
        obtain ⟨f, hf, ht⟩ := h
        rcases List.mem_cons.1 hf with hfx | hfs
        · exact hfx ▸ ht
        · exact absurd ⟨f, hfs, ht⟩ hlater
      exact ⟨[], x, fs, rfl, hx, fun y hy ht => hlater ⟨y, hy, ht⟩⟩

end Field

/-! ## What the nested types of a document say -/

namespace Document

theorem nestedTypes_eq {content : Text} {o : Operation} (h : operation? content = some o) :
    nestedTypes content = NestedTypes.empty.registerAll (Field.shapesAll o.fields) := by
  unfold nestedTypes
  rw [scan_eq, h]
  rfl

/-- Under the type of a field with selections stand the selections of the last such field. -/
theorem get?_nestedTypes_of_last {content : Text} {o : Operation}
    (h : operation? content = some o) {xs ys : List Field} {g : Field}
    (hg : Field.nestedAll o.fields = xs ++ g :: ys) (hlast : ∀ y ∈ ys, y.type ≠ g.type) :
    (nestedTypes content).get? g.type = some g.selections := by
  have hshapes : Field.shapesAll o.fields
      = xs.map Field.shape ++ g.shape :: ys.map Field.shape := by
    unfold Field.shapesAll
    rw [hg, List.map_append, List.map_cons]
  rw [nestedTypes_eq h, hshapes]
  refine NestedTypes.get?_registerAll_last (s := g.shape) ?_ _
  intro s hs
  obtain ⟨y, hy, rfl⟩ := List.mem_map.1 hs
  exact hlast y hy

/-- Fields with the same names and types, in the same order. -/
def Like (fs gs : List Field) : Prop := fs.map Field.key = gs.map Field.key

instance (fs gs : List Field) : Decidable (Like fs gs) :=
  inferInstanceAs (Decidable (fs.map Field.key = gs.map Field.key))

/-- Every field with selections finds, under its type, selections like its own. -/
def Agrees (types : NestedTypes) (fs : List Field) : Prop :=
  ∀ f : Field, f.NestedIn fs →
    ∃ found, types.get? f.type = some found ∧ Like found f.selections

/--
**The last selection of a type name is the one that is found.**

Take any operation of a document, and go through its fields with selections, inner before outer and
left before right. Under the type of such a field stand the selections of the last one with this
type. So every field finds selections like its own if, and only if, any two fields of one type have
like selections.
-/
theorem get?_nestedTypes_last {content : Text} {o : Operation}
    (h : operation? content = some o) :
    (∀ f : Field, f.NestedIn o.fields →
      ∃ xs g ys, Field.nestedAll o.fields = xs ++ g :: ys ∧ g.type = f.type
        ∧ (∀ y ∈ ys, y.type ≠ f.type)
        ∧ (nestedTypes content).get? f.type = some g.selections)
    ∧ (Agrees (nestedTypes content) o.fields
      ↔ ∀ f g : Field, f.NestedIn o.fields → g.NestedIn o.fields → f.type = g.type →
          Like f.selections g.selections) := by
  have hlast : ∀ f : Field, f.NestedIn o.fields →
      ∃ xs g ys, Field.nestedAll o.fields = xs ++ g :: ys ∧ g.type = f.type
        ∧ (∀ y ∈ ys, y.type ≠ f.type)
        ∧ (nestedTypes content).get? f.type = some g.selections := by
    intro f hf
    obtain ⟨xs, g, ys, he, hg, hys⟩ :=
      Field.exists_last_of_type ⟨f, Field.mem_nestedAll_iff.2 hf, rfl⟩
    refine ⟨xs, g, ys, he, hg, hys, ?_⟩
    rw [← hg]
    exact get?_nestedTypes_of_last h he fun y hy => hg ▸ hys y hy
  refine ⟨hlast, ?_, ?_⟩
  · -- two fields of one type find the same selections, and each is like its own
    intro hall f g hf hg ht
    obtain ⟨a, ha, hfa⟩ := hall f hf
    obtain ⟨b, hb, hgb⟩ := hall g hg
    rw [ht, hb] at ha
    cases ha
    exact hfa.symm.trans hgb
  · intro hall f hf
    obtain ⟨xs, g, ys, he, hg, _, hget⟩ := hlast f hf
    have hmem : g ∈ Field.nestedAll o.fields := by
      rw [he]
      exact List.mem_append_right xs List.mem_cons_self
    exact ⟨g.selections, hget, hall g f (Field.mem_nestedAll_iff.1 hmem) hf hg⟩

/-- Two selections in one scope, told apart only by the case of their first letter. -/
def homonymSource : Text :=
  "query Q \x7b\n  user \x7b\n    id\n  \x7d\n  User \x7b\n    name\n  \x7d\n\x7d\n".toList

/-- The operation of `homonymSource`: both selections get the type `QUser`. -/
def homonymOperation : Operation where
  kind := .query
  name := "Q".toList
  fields :=
    [⟨"user".toList, "QUser".toList, [⟨"id".toList, Field.scalarType, []⟩]⟩,
      ⟨"User".toList, "QUser".toList, [⟨"name".toList, Field.scalarType, []⟩]⟩]

theorem operation?_homonymSource : operation? homonymSource = some homonymOperation := by
  decide +kernel

theorem get?_nestedTypes_last_homonyms :
    operation? homonymSource = some homonymOperation
      ∧ ∃ xs g ys, Field.nestedAll homonymOperation.fields = xs ++ g :: ys
        ∧ g.type = "QUser".toList ∧ (∀ y ∈ ys, y.type ≠ "QUser".toList)
        ∧ (nestedTypes homonymSource).get? "QUser".toList = some g.selections :=
  ⟨operation?_homonymSource,
    (get?_nestedTypes_last operation?_homonymSource).1
      ⟨"user".toList, "QUser".toList, [⟨"id".toList, Field.scalarType, []⟩]⟩
      ⟨.among List.mem_cons_self, List.cons_ne_nil _ _⟩⟩

/-- The nested types of a document need not agree with its fields. -/
theorem not_agrees_nestedTypes :
    ¬ ∀ (content : Text) (o : Operation), operation? content = some o →
      Agrees (nestedTypes content) o.fields := by
  intro hall
  have hagrees := hall homonymSource homonymOperation operation?_homonymSource
  obtain ⟨found, hfound, hlike⟩ :=
    hagrees ⟨"user".toList, "QUser".toList, [⟨"id".toList, Field.scalarType, []⟩]⟩
      ⟨.among List.mem_cons_self, List.cons_ne_nil _ _⟩
  have hget : (nestedTypes homonymSource).get? "QUser".toList
      = some [⟨"name".toList, Field.scalarType, []⟩] := by
    rw [nestedTypes_eq operation?_homonymSource]
    decide +kernel
  rw [hget] at hfound
  cases hfound
  exact absurd hlike (by decide)

end Document

end GqlScan
