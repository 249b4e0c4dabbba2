import GqlScan.Proofs.Canonical.Source
import GqlScan.Proofs.CleanText
import GqlScan.Proofs.Homonyms
import GqlScan.Proofs.Readers

/-!
# How names and types are spelled

Whatever a document says, the names that are read off it consist of letters of names and the types
of letters of types, and neither is ever empty. The same holds of the type names that are made up
for nested selections, for they are put together from names.

Main statement: `spelled_of_within`, for the fields of an operation at any depth.
-/

namespace GqlScan

open Text Canonical

/-! ## Names and types -/

theorem Canonical.IsName.isTypeName {t : Text} (h : IsName t) : IsTypeName t :=
  ⟨h.1, fun c hc => isTypeChar_of_isNameChar (h.2 c hc)⟩

theorem Canonical.IsName.append {t u : Text} (ht : IsName t) (hu : IsName u) :
    IsName (t ++ u) := by
  refine ⟨List.append_ne_nil_of_left_ne_nil ht.1 u, fun c hc => ?_⟩
  rcases List.mem_append.1 hc with hc | hc
  · exact ht.2 c hc
  · exact hu.2 c hc

namespace Text

theorem isName_of_name? {t n rest : Text} (h : name? t = some (n, rest)) : IsName n := by
  unfold name? at h
  split at h
  · cases h
  · rename_i hne
    cases h
    exact ⟨hne, fun c hc => List.mem_takeWhile_imp hc⟩

/-- A name that blanks set apart from what is in front of it, read as far as it goes. -/
theorem name?_behind_blanks_iff {t n rest : Text} :
    (t.head?.any isBlank = true ∧ name? (trimStart t) = some (n, rest))
      ↔ ∃ gap, t = gap ++ (n ++ rest)
        ∧ gap ≠ [] ∧ Blanks gap ∧ IsName n ∧ Stops isNameChar rest := by
  constructor
  · rintro ⟨hblank, hname⟩
    obtain ⟨gap, hgap, hblanks⟩ := exists_trimStart_append t
    refine ⟨gap, ?_, ?_, hblanks, isName_of_name? hname, stops_of_name? hname⟩
    · rw [append_of_name? hname]
      exact hgap
    · -- the blank in front is not the first letter of the name
      rintro rfl
      obtain ⟨c, hc, hcblank⟩ := (Option.any_eq_true _ _).1 hblank
      rw [List.nil_append] at hgap
      rw [hgap] at hc
      rw [stops_trimStart t c hc] at hcblank
      cases hcblank
  · rintro ⟨gap, rfl, hne, hblanks, hn, hrest⟩
    have hstops : Stops isBlank n := fun c hc =>
      isBlank_eq_false_of_isNameChar (hn.2 c (List.mem_of_mem_head? hc))
    constructor
    · rw [List.head?_append_of_ne_nil _ hne]
      exact (Option.any_eq_true _ _).2 ⟨gap.head hne, List.head?_eq_some_head hne,
        hblanks _ (List.head_mem hne)⟩
    · rw [trimStart_blanks_append hblanks, trimStart_of_stops (hstops.append hn.1 rest),
        name?_append hrest, name?_of_letters hn.1 hn.2]
      rfl

/-- The ASCII letters of a name, looked at one by one, have letters of a name as their upper
case. -/
theorem isNameChar_upper_ascii : ∀ n < 0x80, isNameChar (Char.ofNat n) = true →
    isNameChar (Char.ofNat n).toUpper = true := by decide +kernel

theorem isName_capitalize {t : Text} (h : IsName t) : IsName (capitalize t) := by
  obtain ⟨hne, hletters⟩ := h
  cases t with
  | nil => exact absurd rfl hne
  | cons c rest =>
    have hc : isNameChar c = true := hletters c List.mem_cons_self
    have hascii : c.toNat < 0x80 := toNat_lt_of_isNameChar hc
    have hupper : isNameChar c.toUpper = true := by
      have := isNameChar_upper_ascii c.toNat hascii
      rw [Char.ofNat_toNat] at this
      exact this hc
    rw [capitalize, upper, if_pos hascii]
    refine ⟨List.cons_ne_nil _ _, fun d hd => ?_⟩
    rcases List.mem_cons.1 hd with rfl | hd
    · exact hupper
    · exact hletters d (List.mem_cons_of_mem c hd)

end Text

theorem Field.isName_shapeName {owner name : Text} (howner : IsName owner) (hname : IsName name) :
    IsName (shapeName owner name) :=
  howner.append (isName_capitalize hname)

/-! ## Lines and items -/

namespace LineShape

theorem name_of_openingTail? {aliasName? : Option Text} {field more : Text} {o : Opening}
    (h : openingTail? aliasName? field more = some o) : o.name = aliasName?.getD field := by
  unfold openingTail? at h
  split at h
  · split at h
    · cases h
    · cases h
      rfl
  · cases h

/-- A selection is recorded under a name. -/
theorem isName_of_opening? {line : Text} {o : Opening} (h : opening? line = some o) :
    IsName o.name := by
  obtain ⟨⟨first, more⟩, hn, h⟩ := Option.bind_eq_some_iff.1 h
  dsimp only at h
  split at h
  · obtain ⟨⟨field, more⟩, -, h⟩ := Option.bind_eq_some_iff.1 h
    rw [name_of_openingTail? h]
    exact isName_of_name? hn
  · rw [name_of_openingTail? h]
    exact isName_of_name? hn

theorem isName_of_simple? {line name : Text} {type? : Option Text}
    (h : simple? line = some (name, type?)) :
    IsName name ∧ ∀ type, type? = some type → IsTypeName type := by
  obtain ⟨⟨first, more⟩, hn, h⟩ := Option.bind_eq_some_iff.1 h
  dsimp only at h
  split at h
  · split at h
    · rename_i hne
      cases h
      refine ⟨isName_of_name? hn, ?_⟩
      rintro type ⟨rfl⟩
      exact ⟨hne.1, fun c hc => List.mem_takeWhile_imp hc⟩
    · cases h
  · split at h
    · cases h
      exact ⟨isName_of_name? hn, fun type ht => by cases ht⟩
    · cases h

theorem isName_of_aliased? {line name : Text} (h : aliased? line = some name) : IsName name := by
  obtain ⟨⟨first, more⟩, hn, h⟩ := Option.bind_eq_some_iff.1 h
  dsimp only at h
  split at h
  · obtain ⟨⟨field, more⟩, -, h⟩ := Option.bind_eq_some_iff.1 h
    dsimp only at h
    split at h
    · cases h
      exact isName_of_name? hn
    · cases h
  · cases h

end LineShape

namespace Selection

theorem isName_of_leaf? {line name type : Text} (h : leaf? line = some (name, type)) :
    IsName name ∧ IsTypeName type := by
  unfold leaf? at h
  split at h
  · rename_i simpleName type? hs
    cases h
    obtain ⟨hname, htype⟩ := LineShape.isName_of_simple? hs
    refine ⟨hname, ?_⟩
    cases type? with
    | none => exact (by decide : IsTypeName Field.scalarType)
    | some type => exact htype type rfl
  · obtain ⟨aliasName, ha, he⟩ := Option.map_eq_some_iff.1 h
    cases he
    exact ⟨LineShape.isName_of_aliased? ha, (by decide : IsTypeName Field.scalarType)⟩

/-- The names and types of an item are spelled as such. -/
def Item.Spelled : Item → Prop
  | .leaf name type => IsName name ∧ IsTypeName type
  | .nested name _ _ => IsName name
  | .unrecognised _ => True

theorem spelled_of_mem_items {lines : List Text} {item : Item} (h : item ∈ items lines) :
    item.Spelled := by
  fun_induction items lines with
  | case1 => cases h
  | case2 line rest o ho block ih =>
    rcases List.mem_cons.1 h with rfl | h
    · exact LineShape.isName_of_opening? ho
    · exact ih h
  | case3 line rest ho name type hleaf ih =>
    rcases List.mem_cons.1 h with rfl | h
    · exact isName_of_leaf? hleaf
    · exact ih h
  | case4 line rest ho hleaf hbraces ih => exact ih h
  | case5 line rest ho hleaf hbraces ih =>
    rcases List.mem_cons.1 h with rfl | h
    · exact trivial
    · exact ih h

end Selection

/-! ## Fields -/

/-- The name and the type of a field are spelled as such. -/
structure Field.Spelled (f : Field) : Prop where
  name : IsName f.name
  type : IsTypeName f.type

namespace Selection

theorem spelled_nestedField {owner name : Text} (howner : IsName owner) (hname : IsName name)
    (inner : List Field) : (nestedField owner name inner).Spelled := by
  unfold nestedField
  split
  · exact ⟨hname, (by decide : IsTypeName Field.objectType)⟩
  · exact ⟨hname, (Field.isName_shapeName howner hname).isTypeName⟩

theorem selections_nestedField (owner name : Text) (inner : List Field) :
    (nestedField owner name inner).selections = inner := by
  unfold nestedField
  split
  · rename_i h
    exact (List.isEmpty_iff.1 h).symm
  · rfl

/-- The fields of a selection set are spelled as such at any depth. -/
theorem spelled_of_within_fields {f : Field} {owner : Text} {lines : List Text}
    (howner : IsName owner) (h : f.Within (fields owner lines)) : f.Spelled := by
  -- the selections of a field are the fields of its block, which holds fewer braces
  induction hn : Block.braces lines using Nat.strongRecOn generalizing owner lines with
  | ind n ih =>
    subst hn
    have hitem : ∀ g ∈ fields owner lines, g.Spelled ∧ (f.Within g.selections → f.Spelled) := by
      intro g hg
      rw [fields_eq] at hg
      obtain ⟨item, hmem, hfield⟩ := List.mem_filterMap.1 hg
      have hspelled := spelled_of_mem_items ((firstWins_sublist _ _).subset hmem)
      cases item with
      | leaf name type =>
        cases hfield
        refine ⟨⟨hspelled.1, hspelled.2⟩, fun hw => ?_⟩
        cases hw with
        | among hf => cases hf
        | under hf _ => cases hf
      | nested name body spread =>
        cases hfield
        refine ⟨spelled_nestedField howner hspelled _, fun hw => ?_⟩
        rw [selections_nestedField] at hw
        cases spread with
        | true =>
          exact ih _ (braces_body_lt hmem) (Field.isName_shapeName howner hspelled) hw rfl
        | false =>
          rw [if_neg Bool.false_ne_true] at hw
          cases hw with
          | among hf => cases hf
          | under hf _ => cases hf
      | unrecognised line => cases hfield
    cases h with
    | among hf => exact (hitem f hf).1
    | under hg hw => exact (hitem _ hg).2 hw

end Selection

/-! ## Operations -/

namespace Header

theorem isName_of_front? {t rest : Text} {h : Header} (hf : front? t = some (h, rest)) :
    IsName h.name := by
  obtain ⟨⟨kind, more⟩, -, hf⟩ := Option.bind_eq_some_iff.1 hf
  dsimp only at hf
  split at hf
  · obtain ⟨⟨name, rest⟩, hn, hf⟩ := Option.bind_eq_some_iff.1 hf
    cases hf
    exact isName_of_name? hn
  · cases hf

theorem isName_of_locate? {t rest : Text} {h : Header} (hl : locate? t = some (h, rest)) :
    IsName h.name := by
  induction t with
  | nil => cases hl
  | cons c t ih =>
    rw [locate?] at hl
    split at hl
    · rename_i found hfront
      cases hl
      exact isName_of_front? hfront
    · exact ih hl

theorem isName_of_find? {line : Text} {h : Header} (hf : find? line = some h) :
    IsName h.name := by
  obtain ⟨p, hl, rfl⟩ := Option.map_eq_some_iff.1 hf
  exact isName_of_locate? hl

end Header

namespace Document

theorem isName_of_header? {content : Text} {h : Header} (hh : header? content = some h) :
    IsName h.name := by
  obtain ⟨line, _, hfind⟩ := List.exists_of_findSome?_eq_some hh
  exact Header.isName_of_find? hfind

/-- **The fields of an operation are spelled as names and types at any depth.** -/
theorem spelled_of_within {content : Text} {o : Operation} (h : operation? content = some o)
    {f : Field} (hf : f.Within o.fields) : f.Spelled := by
  obtain ⟨header, hheader, rfl⟩ := Option.map_eq_some_iff.1 h
  have hname := isName_of_header? hheader
  change f.Within (fieldsOf header.name _) at hf
  unfold fieldsOf at hf
  split at hf
  · exact Selection.spelled_of_within_fields hname hf
  · cases hf with
    | among hf => cases hf
    | under hf _ => cases hf

end Document

end GqlScan
