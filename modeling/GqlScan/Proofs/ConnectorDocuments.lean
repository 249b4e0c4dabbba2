import Mathlib.Data.List.Forall2
import GqlScan.Proofs.Connectors

/-!
# What a connector document says

A document is a mapping or null, what it lists under `generate` is a mapping or falsy, and every
entry there is null or a mapping with an output directory that is falsy or a text. `Says` tells what
such a document says: for every kind, in the order of the file, one target for every entry of it, in
the order of the list. `Refuses` tells why any other document is refused: its shape is looked at
from the outside to the inside, and among the entries the first that gives no target decides. A
wrong shape is a fault of the configuration, and an output directory that is neither falsy nor a
text is a fault of type.

The values are those of whatever library reads YAML. A text can hold more than characters there, so
not every text without the null character is an output directory: see `not_loaded_halfPath`.

Main statement: `load_decides`.
-/

namespace GqlScan

open Text

namespace Connector

/-! ## Attempts one after another -/

section Attempts

variable {α β : Type} {f : α → Except Failure β}

theorem mapM_eq_ok_iff {xs : List α} {ys : List β} :
    xs.mapM f = .ok ys ↔ List.Forall₂ (fun x y => f x = .ok y) xs ys := by
  induction xs generalizing ys with
  | nil =>
    rw [List.forall₂_nil_left_iff]
    exact ⟨fun h => (Except.ok.inj h).symm, fun h => h ▸ rfl⟩
  | cons x xs ih =>
    rw [mapM_cons_eq, List.forall₂_cons_left_iff]
    simp only [← ih]
    cases hx : f x with
    | error e => exact iff_of_false (fun h => by cases h) fun ⟨y, _, hy, _⟩ => by cases hy
    | ok y =>
      refine map_eq_ok_iff.trans ⟨?_, ?_⟩
      · rintro ⟨later, hlater, rfl⟩
        exact ⟨y, later, rfl, hlater, rfl⟩
      · rintro ⟨z, later, hz, hlater, rfl⟩
        cases hz
        exact ⟨later, hlater, rfl⟩

theorem exists_mapM_eq_ok_iff {xs : List α} :
    (∃ ys, xs.mapM f = .ok ys) ↔ ∀ x ∈ xs, (f x).isOk = true := by
  induction xs with
  | nil => exact iff_of_true ⟨[], rfl⟩ fun _ hx => by cases hx
  | cons x xs ih =>
    rw [List.forall_mem_cons, ← ih, mapM_cons_eq]
    cases f x with
    | error e => exact iff_of_false (fun ⟨ys, h⟩ => by cases h) fun ⟨h, _⟩ => by cases h
    | ok y =>
      simp only [map_eq_ok_iff]
      constructor
      · rintro ⟨_, later, hlater, rfl⟩
        exact ⟨rfl, later, hlater⟩
      · rintro ⟨-, later, hlater⟩
        exact ⟨_, later, hlater, rfl⟩

end Attempts

section

variable {V : Type} (yaml : Yaml.Library V)

/-! ## Entries -/

/-- The type of what is neither null nor a text. -/
def wrongType? : Yaml.View V → Option Text
  | .null | .str _ => none
  | .list _ => some "list".toList
  | .map _ => some "dict".toList
  | .other type _ => some type

/-- A value asks for an output directory, or for none. -/
inductive Directs (directory folder : Path) : V → Option Place → Prop where
  | none {v : V} : Falsy (yaml.view v) → Directs directory folder v none
  | some {v : V} {t : Points} {d : Place} : yaml.view v = .str t → t ≠ [] →
      Place.Leads directory folder t d → Directs directory folder v (some d)

/-- Why a value asks for no output directory that can be. -/
inductive Misdirects (directory folder : Path) : V → Failure → Prop where
  | wrongType {v : V} {type : Text} : ¬ Falsy (yaml.view v) →
      wrongType? (yaml.view v) = some type → Misdirects directory folder v (.badOutputDir type)
  | noPlace {v : V} {t : Points} {fault : Place.Fault} : yaml.view v = .str t → t ≠ [] →
      (∃ p ∈ t, p.Unfit) → Place.find directory folder t = .error fault →
      Misdirects directory folder v (.noPlace fault)

/-- An entry of a kind gives a target. -/
inductive Gives (directory folder : Path) (kind : V) : V → Target V → Prop where
  | bare {entry : V} : yaml.view entry = .null →
      Gives directory folder kind entry ⟨kind, none, none⟩
  | mapping {entry : V} {fields : List (V × V)} {v? package? : Option V} {dir? : Option Place} :
      yaml.view entry = .map fields → Under yaml "outputDir".toList fields v? →
      v?.elim (dir? = none) (Directs yaml directory folder · dir?) →
      Under yaml "package".toList fields package? →
      Gives directory folder kind entry ⟨kind, dir?, package?⟩

/-- Why an entry of a kind gives no target. -/
inductive Spoils (directory folder : Path) (kind : V) : V → Failure → Prop where
  | notMapping {entry : V} : yaml.view entry ≠ .null → ¬ IsMapping yaml entry →
      Spoils directory folder kind entry (.entryNotMapping (yaml.shown kind))
  | outputDir {entry v : V} {fields : List (V × V)} {f : Failure} :
      yaml.view entry = .map fields → Holds yaml "outputDir".toList fields v →
      Misdirects yaml directory folder v f → Spoils directory folder kind entry f

section Entries

variable {yaml} {directory folder : Path} (hfolder : folder.NoNull)

theorem outputDir_of_falsy {v : V} (h : Falsy (yaml.view v)) :
    outputDir yaml directory folder v = .ok none := if_pos ((isFalsy_iff yaml).2 h)

/-- A text that is not empty asks for the place that it names. -/
theorem outputDir_of_str {v : V} {t : Points} (hview : yaml.view v = .str t) (hne : t ≠ []) :
    outputDir yaml directory folder v
      = ((Place.find directory folder t).mapError Failure.noPlace).map some := by
  have hfalsy : ¬ yaml.isFalsy v = true := by
    rw [isFalsy_iff, hview]
    intro h
    cases h
    exact hne rfl
  unfold outputDir
  rw [if_neg hfalsy, hview]
  dsimp only
  cases Place.find directory folder t <;> rfl

/-- Whatever else is not falsy is refused for its type. -/
theorem outputDir_of_wrongType {v : V} {type : Text} (hfalsy : ¬ Falsy (yaml.view v))
    (htype : wrongType? (yaml.view v) = some type) :
    outputDir yaml directory folder v = .error (.badOutputDir type) := by
  unfold outputDir
  rw [if_neg (mt (isFalsy_iff yaml).1 hfalsy)]
  cases hview : yaml.view v with
  | null =>
    rw [hview] at htype
    cases htype
  | str t =>
    rw [hview] at htype
    cases htype
  | _ =>
    rw [hview] at htype
    cases htype
    rfl

variable (yaml) in
/-- What a value can be as an output directory. -/
theorem falsy_or (v : V) :
    Falsy (yaml.view v) ∨ (∃ t, yaml.view v = .str t ∧ t ≠ [])
      ∨ ¬ Falsy (yaml.view v) ∧ ∃ type, wrongType? (yaml.view v) = some type := by
  by_cases hfalsy : Falsy (yaml.view v)
  · exact .inl hfalsy
  · refine .inr ?_
    cases hview : yaml.view v with
    | null =>
      rw [hview] at hfalsy
      exact absurd .null hfalsy
    | str t =>
      rw [hview] at hfalsy
      refine .inl ⟨t, rfl, ?_⟩
      rintro rfl
      exact hfalsy .text
    | _ => exact .inr ⟨hview ▸ hfalsy, _, rfl⟩

include hfolder

theorem outputDir_eq_ok_iff {v : V} {dir? : Option Place} :
    outputDir yaml directory folder v = .ok dir? ↔ Directs yaml directory folder v dir? := by
  constructor
  · intro h
    rcases falsy_or yaml v with hfalsy | ⟨t, hview, hne⟩ | ⟨hfalsy, type, htype⟩
    · rw [outputDir_of_falsy hfalsy] at h
      cases h
      exact .none hfalsy
    · rw [outputDir_of_str hview hne] at h
      cases hfind : Place.find directory folder t with
      | error fault =>
        rw [hfind] at h
        cases h
      | ok d =>
        rw [hfind] at h
        cases h
        exact .some hview hne ((Place.find_eq_ok_iff hfolder directory t).1 hfind)
    · rw [outputDir_of_wrongType hfalsy htype] at h
      cases h
  · intro h
    cases h with
    | none hfalsy => exact outputDir_of_falsy hfalsy
    | some hview hne hleads =>
      rw [outputDir_of_str hview hne, (Place.find_eq_ok_iff hfolder directory _).2 hleads]
      rfl

theorem outputDir_eq_error_iff {v : V} {f : Failure} :
    outputDir yaml directory folder v = .error f ↔ Misdirects yaml directory folder v f := by
  constructor
  · intro h
    rcases falsy_or yaml v with hfalsy | ⟨t, hview, hne⟩ | ⟨hfalsy, type, htype⟩
    · rw [outputDir_of_falsy hfalsy] at h
      cases h
    · rw [outputDir_of_str hview hne] at h
      have hfound := Place.isOk_find_iff hfolder directory t
      cases hfind : Place.find directory folder t with
      | error fault =>
        rw [hfind] at h hfound
        cases h
        refine .noPlace hview hne ?_ hfind
        simpa using mt hfound.2 Bool.false_ne_true
      | ok d =>
        rw [hfind] at h
        cases h
    · rw [outputDir_of_wrongType hfalsy htype] at h
      cases h
      exact .wrongType hfalsy htype
  · intro h
    cases h with
    | wrongType hfalsy htype => exact outputDir_of_wrongType hfalsy htype
    | noPlace hview hne _ hfind =>
      rw [outputDir_of_str hview hne, hfind]
      rfl

theorem asked_eq_ok_iff {fields : List (V × V)} {dir? : Option Place} :
    asked yaml directory folder fields = .ok dir?
      ↔ (yaml.field? "outputDir".toList fields).elim (dir? = none)
          (Directs yaml directory folder · dir?) := by
  unfold asked
  cases yaml.field? "outputDir".toList fields with
  | none => exact ⟨fun h => (Except.ok.inj h).symm, fun h => congrArg Except.ok h.symm⟩
  | some v => exact outputDir_eq_ok_iff hfolder

theorem target_eq_ok_iff {kind entry : V} {t : Target V} :
    target yaml directory folder kind entry = .ok t
      ↔ Gives yaml directory folder kind entry t := by
  constructor
  · intro h
    cases hview : yaml.view entry with
    | null =>
      unfold target at h
      rw [hview] at h
      cases h
      exact .bare hview
    | map fields =>
      rw [target_of_map yaml hview, map_eq_ok_iff] at h
      obtain ⟨dir?, hasked, rfl⟩ := h
      exact .mapping hview ((field?_eq_iff yaml).1 rfl) ((asked_eq_ok_iff hfolder).1 hasked)
        ((field?_eq_iff yaml).1 rfl)
    | _ =>
      unfold target at h
      rw [hview] at h
      cases h
  · intro h
    cases h with
    | bare hview =>
      unfold target
      rw [hview]
    | mapping hview hdirectory hdirects hpackage =>
      rw [← (field?_eq_iff yaml).2 hdirectory] at hdirects
      rw [target_of_map yaml hview, (asked_eq_ok_iff hfolder).2 hdirects,
        (field?_eq_iff yaml).2 hpackage]
      rfl

theorem target_eq_error_iff {kind entry : V} {f : Failure} :
    target yaml directory folder kind entry = .error f
      ↔ Spoils yaml directory folder kind entry f := by
  constructor
  · intro h
    cases hview : yaml.view entry with
    | null =>
      unfold target at h
      rw [hview] at h
      cases h
    | map fields =>
      rw [target_of_map yaml hview, map_eq_error_iff] at h
      unfold asked at h
      cases hfield : yaml.field? "outputDir".toList fields with
      | none =>
        rw [hfield] at h
        cases h
      | some v =>
        rw [hfield] at h
        exact .outputDir hview ((field?_eq_some_iff yaml).1 hfield)
          ((outputDir_eq_error_iff hfolder).1 h)
    | _ =>
      unfold target at h
      rw [hview] at h
      cases h
      refine .notMapping (hview ▸ nofun) fun ⟨fields, hmap⟩ => ?_
      rw [hview] at hmap
      cases hmap
  · intro h
    cases h with
    | notMapping hnull hmap =>
      unfold target
      cases hview : yaml.view entry with
      | null => exact absurd hview hnull
      | map fields => exact absurd ⟨fields, hview⟩ hmap
      | _ => rfl
    | outputDir hview hholds hmisdirects =>
      rw [target_of_map yaml hview, map_eq_error_iff]
      unfold asked
      rw [(field?_eq_some_iff yaml).2 hholds]
      exact (outputDir_eq_error_iff hfolder).2 hmisdirects

end Entries

/-! ## Documents -/

/-- A document with the right shape, in which every entry gives a target. -/
def WellShaped (v : V) : Prop :=
  ∃ kinds, Asks yaml v kinds
    ∧ ∀ item ∈ kinds, ∀ entries, Entries yaml item.2 entries → ∀ entry ∈ entries, Passes yaml entry

/-- The targets of a kind, one for each entry of it. -/
def GivesAll (directory folder : Path) (item : V × V) (group : List (Target V)) : Prop :=
  ∃ entries, Entries yaml item.2 entries
    ∧ List.Forall₂ (Gives yaml directory folder item.1) entries group

/-- What a document says: kind by kind, one target for each entry. -/
inductive Says (directory path : Path) : V → Config V → Prop where
  | intro {v : V} {fields kinds : List (V × V)} {generate? connectorId? : Option V}
      {groups : List (List (Target V))} :
      TopLevel yaml v fields → Under yaml "generate".toList fields generate? →
      Lists yaml generate? kinds → Under yaml "connectorId".toList fields connectorId? →
      List.Forall₂ (GivesAll yaml directory path.parent) kinds groups →
      Says directory path v ⟨path, connectorId?, groups.flatten⟩

/-- Why a document is refused: the first thing that is wrong with it, from the outside to the inside
and among the entries in the order of the file. -/
inductive Refuses (directory path : Path) : V → Failure → Prop where
  | notMapping {v : V} : (∀ fields, ¬ TopLevel yaml v fields) →
      Refuses directory path v (.notMapping path)
  | generateNotMapping {v : V} {fields : List (V × V)} {generate? : Option V} :
      TopLevel yaml v fields → Under yaml "generate".toList fields generate? →
      (∀ kinds, ¬ Lists yaml generate? kinds) → Refuses directory path v (.generateNotMapping path)
  | entry {v kind entry : V} {kinds before later : List (V × V)} {f : Failure} :
      Asks yaml v kinds → Requests yaml kinds (before ++ (kind, entry) :: later) →
      (∀ request ∈ before, Passes yaml request.2) →
      Spoils yaml directory path.parent kind entry f → Refuses directory path v f

variable {yaml}

theorem givesAll_iff {directory folder : Path} {item : V × V} {group : List (Target V)} :
    GivesAll yaml directory folder item group
      ↔ List.Forall₂ (Gives yaml directory folder item.1) (entriesOf yaml item.2) group := by
  constructor
  · rintro ⟨entries, hentries, hgroup⟩
    rwa [(entriesOf_eq_iff yaml).2 hentries]
  · exact fun h => ⟨_, (entriesOf_eq_iff yaml).1 rfl, h⟩

theorem forall₂_append_left_iff {α β : Type} {R : α → β → Prop} {xs ys : List α} {zs : List β} :
    List.Forall₂ R (xs ++ ys) zs
      ↔ ∃ us vs, List.Forall₂ R xs us ∧ List.Forall₂ R ys vs ∧ us ++ vs = zs := by
  constructor
  · intro h
    have htake := List.forall₂_take xs.length h
    have hdrop := List.forall₂_drop xs.length h
    rw [List.take_left] at htake
    rw [List.drop_left] at hdrop
    exact ⟨_, _, htake, hdrop, List.take_append_drop _ _⟩
  · rintro ⟨us, vs, hxs, hys, rfl⟩
    exact List.rel_append hxs hys

/-- One target for each request is a group of targets for each kind, one for each entry of it. -/
theorem forall₂_requests_iff {directory folder : Path} {kinds : List (V × V)}
    {targets : List (Target V)} :
    List.Forall₂ (fun request t => Gives yaml directory folder request.1 request.2 t)
        (requests yaml kinds) targets
      ↔ ∃ groups, List.Forall₂ (GivesAll yaml directory folder) kinds groups
        ∧ groups.flatten = targets := by
  induction kinds generalizing targets with
  | nil =>
    constructor
    · intro h
      exact ⟨[], .nil, (List.forall₂_nil_left_iff.1 h).symm⟩
    · rintro ⟨groups, hgroups, rfl⟩
      rw [List.forall₂_nil_left_iff.1 hgroups]
      exact .nil
  | cons item kinds ih =>
    -- the requests of the first kind come first, and so do their targets
    rw [requests_cons, forall₂_append_left_iff]
    constructor
    · rintro ⟨first, later, hfirst, hlater, rfl⟩
      obtain ⟨groups, hgroups, rfl⟩ := ih.1 hlater
      rw [List.forall₂_map_left_iff] at hfirst
      exact ⟨first :: groups, .cons (givesAll_iff.2 hfirst) hgroups, rfl⟩
    · rintro ⟨groups, hgroups, rfl⟩
      obtain ⟨first, later, hfirst, hlater, rfl⟩ := List.forall₂_cons_left_iff.1 hgroups
      exact ⟨first, later.flatten, List.forall₂_map_left_iff.2 (givesAll_iff.1 hfirst),
        ih.2 ⟨later, hlater, rfl⟩, rfl⟩

theorem forall_mem_requests {kinds : List (V × V)} :
    (∀ request ∈ requests yaml kinds, Passes yaml request.2)
      ↔ ∀ item ∈ kinds, ∀ entries, Entries yaml item.2 entries →
        ∀ entry ∈ entries, Passes yaml entry := by
  simp only [← entriesOf_eq_iff]
  unfold requests
  simp only [List.mem_flatMap, List.mem_map]
  constructor
  · rintro h item hitem _ rfl entry hentry
    exact h (item.1, entry) ⟨item, hitem, entry, hentry, rfl⟩
  · rintro h _ ⟨item, hitem, entry, hentry, rfl⟩
    exact h item hitem _ rfl entry hentry

section Targets

variable {folder : Path} (hfolder : folder.NoNull) (directory : Path)
  {kinds : List (V × V)}
include hfolder

theorem targetsOf_eq_ok_iff {targets : List (Target V)} :
    targetsOf yaml directory folder kinds = .ok targets
      ↔ ∃ groups, List.Forall₂ (GivesAll yaml directory folder) kinds groups
        ∧ groups.flatten = targets := by
  unfold targetsOf
  simp only [mapM_eq_ok_iff, target_eq_ok_iff hfolder]
  exact forall₂_requests_iff

theorem targetsOf_eq_error_iff {f : Failure} :
    targetsOf yaml directory folder kinds = .error f
      ↔ ∃ before request later, Requests yaml kinds (before ++ request :: later)
        ∧ (∀ r ∈ before, Passes yaml r.2)
        ∧ Spoils yaml directory folder request.1 request.2 f := by
  unfold targetsOf
  simp only [mapM_eq_error_iff, target_eq_error_iff hfolder, isOk_target_iff hfolder,
    requests_eq_iff]

theorem exists_targetsOf_eq_ok_iff :
    (∃ targets, targetsOf yaml directory folder kinds = .ok targets)
      ↔ ∀ item ∈ kinds, ∀ entries, Entries yaml item.2 entries →
        ∀ entry ∈ entries, Passes yaml entry := by
  unfold targetsOf
  rw [exists_mapM_eq_ok_iff]
  simp only [isOk_target_iff hfolder]
  exact forall_mem_requests

end Targets

/-! ## What is decided -/

section Documents

variable {path : Path} {v : V} (hpath : path.NoNull) (directory : Path)
include hpath

/-- **A document that is not refused is taken at its word.** -/
theorem ofValue_eq_ok_iff {c : Config V} :
    ofValue yaml directory path v = .ok c ↔ Says yaml directory path v c := by
  have hfolder := hpath.parent
  constructor
  · intro h
    obtain hno | ⟨fields, htop, hno | ⟨kinds, hlists⟩⟩ := shape yaml v
    · rw [ofValue_of_no_top directory hno] at h
      cases h
    · rw [ofValue_of_no_list directory htop hno] at h
      cases h
    · rw [ofValue_of_lists directory htop hlists, map_eq_ok_iff] at h
      obtain ⟨targets, htargets, rfl⟩ := h
      obtain ⟨groups, hgroups, rfl⟩ := (targetsOf_eq_ok_iff hfolder directory).1 htargets
      exact .intro htop ((field?_eq_iff yaml).1 rfl) hlists ((field?_eq_iff yaml).1 rfl) hgroups
  · rintro ⟨htop, hgenerate, hlists, hconnectorId, hgroups⟩
    rw [← (field?_eq_iff yaml).2 hgenerate] at hlists
    rw [ofValue_of_lists directory htop hlists,
      (targetsOf_eq_ok_iff hfolder directory).2 ⟨_, hgroups, rfl⟩,
      (field?_eq_iff yaml).2 hconnectorId]
    rfl

/-- **The first thing that is wrong decides why a document is refused.** -/
theorem ofValue_eq_error_iff {f : Failure} :
    ofValue yaml directory path v = .error f ↔ Refuses yaml directory path v f := by
  have hfolder := hpath.parent
  constructor
  · intro h
    obtain hno | ⟨fields, htop, hno | ⟨kinds, hlists⟩⟩ := shape yaml v
    · rw [ofValue_of_no_top directory hno] at h
      cases h
      exact .notMapping hno
    · rw [ofValue_of_no_list directory htop hno] at h
      cases h
      exact .generateNotMapping htop ((field?_eq_iff yaml).1 rfl) hno
    · rw [ofValue_of_lists directory htop hlists, map_eq_error_iff] at h
      obtain ⟨before, request, later, hsplit, hbefore, hspoils⟩ :=
        (targetsOf_eq_error_iff hfolder directory).1 h
      exact .entry (asks_of_lists htop hlists) hsplit hbefore hspoils
  · intro h
    cases h with
    | notMapping hno => exact ofValue_of_no_top directory hno
    | generateNotMapping htop hgenerate hno =>
      rw [← (field?_eq_iff yaml).2 hgenerate] at hno
      exact ofValue_of_no_list directory htop hno
    | entry hasks hsplit hbefore hspoils =>
      obtain ⟨htop, hgenerate, hlists⟩ := hasks
      rw [← (field?_eq_iff yaml).2 hgenerate] at hlists
      rw [ofValue_of_lists directory htop hlists,
        (targetsOf_eq_error_iff hfolder directory).2 ⟨_, _, _, hsplit, hbefore, hspoils⟩]
      rfl

/-- **A document is used exactly when it has the right shape.** -/
theorem exists_ofValue_eq_ok_iff :
    (∃ c, ofValue yaml directory path v = .ok c) ↔ WellShaped yaml v := by
  have hfolder := hpath.parent
  constructor
  · rintro ⟨c, hc⟩
    obtain ⟨htop, hgenerate, hlists, -, hgroups⟩ := (ofValue_eq_ok_iff hpath directory).1 hc
    have htargets := (targetsOf_eq_ok_iff hfolder directory).2 ⟨_, hgroups, rfl⟩
    exact ⟨_, .intro htop hgenerate hlists,
      (exists_targetsOf_eq_ok_iff hfolder directory).1 ⟨_, htargets⟩⟩
  · rintro ⟨kinds, ⟨htop, hgenerate, hlists⟩, hpasses⟩
    obtain ⟨targets, htargets⟩ := (exists_targetsOf_eq_ok_iff hfolder directory).2 hpasses
    rw [← (field?_eq_iff yaml).2 hgenerate] at hlists
    rw [ofValue_of_lists directory htop hlists, htargets]
    exact ⟨_, rfl⟩

end Documents

theorem Misdirects.isReported {directory folder : Path} {w : V} {f : Failure}
    (h : Misdirects yaml directory folder w f) : f.isReported = false := by
  cases h <;> rfl

/-- A refusal is no fault of the configuration exactly when an output directory is the reason. -/
theorem Refuses.isReported_iff {directory path : Path} {v : V} {f : Failure}
    (h : Refuses yaml directory path v f) :
    f.isReported = false ↔ ∃ w, Misdirects yaml directory path.parent w f := by
  cases h with
  | notMapping => exact iff_of_false (by rintro ⟨⟩) (by rintro ⟨w, ⟨⟩⟩)
  | generateNotMapping => exact iff_of_false (by rintro ⟨⟩) (by rintro ⟨w, ⟨⟩⟩)
  | entry _ _ _ hspoils =>
    cases hspoils with
    | notMapping => exact iff_of_false (by rintro ⟨⟩) (by rintro ⟨w, ⟨⟩⟩)
    | outputDir _ _ hmisdirects => exact iff_of_true hmisdirects.isReported ⟨_, hmisdirects⟩

theorem Config.map_some_outputDirs (c : Config V) :
    c.outputDirs.map some = (c.targets.map Target.outputDir?).filter Option.isSome := by
  unfold Config.outputDirs
  induction c.targets with
  | nil => rfl
  | cons t ts ih =>
    cases hdir : t.outputDir? with
    | none => simp [hdir, ih]
    | some d => simp [hdir, ih]

theorem load_eq_ofValue {disk : Disk} {path : Path} {text : Text} {v : V}
    (hread : disk.readText path = .ok text) (hvalue : yaml.load text = .value v)
    (directory : Path) : load yaml disk directory path = ofValue yaml directory path v := by
  unfold load
  rw [hread]
  dsimp only
  rw [hvalue]

variable (yaml) in
/--
**What becomes of a connector file that can be read.**

Whatever library reads YAML, the value that it gives decides. It is used exactly when it is well
shaped: null or a mapping, with kinds that are listed in a mapping or something falsy, and with
entries that are null or mappings whose output directory is falsy or a text in which every code
point can stand in the name of a file. It then says one target for every entry, kind by kind and in
order, bare for null and else with the absolute form of its output directory, if it has one. Any
other value is refused for the first thing that is wrong with it, and that is a fault of the
configuration unless an output directory is the reason. The output directories of a configuration
are those that its targets have, in order.
-/
theorem load_decides {disk : Disk} {path : Path} {text : Text}
    (hread : disk.readText path = .ok text) (directory : Path) :
    (∀ v, yaml.load text = .value v →
      load yaml disk directory path = ofValue yaml directory path v)
    ∧ (∀ v : V,
      ((∃ c, ofValue yaml directory path v = .ok c) ↔ WellShaped yaml v)
      ∧ (∀ c, ofValue yaml directory path v = .ok c ↔ Says yaml directory path v c)
      ∧ (∀ f, ofValue yaml directory path v = .error f ↔ Refuses yaml directory path v f)
      ∧ ∀ f, ofValue yaml directory path v = .error f →
        (f.isReported = false ↔ ∃ w, Misdirects yaml directory path.parent w f))
    ∧ ∀ c : Config V, c.outputDirs.map some
        = (c.targets.map Target.outputDir?).filter Option.isSome := by
  have hpath := Disk.noNull_of_readText hread
  refine ⟨fun v hvalue => load_eq_ofValue hread hvalue directory, fun v => ⟨?_, ?_, ?_, ?_⟩,
    Config.map_some_outputDirs⟩
  · exact exists_ofValue_eq_ok_iff hpath directory
  · exact fun c => ofValue_eq_ok_iff hpath directory
  · exact fun f => ofValue_eq_error_iff hpath directory
  · exact fun f hf => ((ofValue_eq_error_iff hpath directory).1 hf).isReported_iff

end

/-! ## Examples of documents -/

open Cli (Plain project)

/-- The path of the connector file in `Cli.project`. -/
def projectFile : Path := Path.ofText "/proj/connector.yaml".toList

theorem noNull_projectFile : projectFile.NoNull := Path.hasNull_eq_false_iff.1 rfl

/-- A document with two kinds: one lists a target with an output directory and a bare one, the other
is a single bare target. -/
def twoKinds : Text :=
  "generate:\n  dartSdk:\n    - outputDir: ../gen/./dart\n    -\n  swiftSdk:\n".toList

/-- What `twoKinds` says. -/
def twoKindsValue : Plain :=
  .mapping [(.ofText "generate", .mapping
    [(.ofText "dartSdk",
        .list [.mapping [(.ofText "outputDir", .ofText "../gen/./dart")], .null]),
      (.ofText "swiftSdk", .null)])]

theorem load_decides_twoKinds :
    (project (Plain.library twoKinds twoKindsValue)
        (Utf8.encode twoKinds)).disk.readText projectFile = .ok twoKinds
      ∧ ∃ c, WellShaped (Plain.library twoKinds twoKindsValue) twoKindsValue
        ∧ load (Plain.library twoKinds twoKindsValue)
            (project (Plain.library twoKinds twoKindsValue) (Utf8.encode twoKinds)).disk
            (Path.ofText ['/']) projectFile = .ok c
        ∧ Says (Plain.library twoKinds twoKindsValue) (Path.ofText ['/']) projectFile
            twoKindsValue c
        ∧ c.outputDirs.map Place.text = [Points.ofText "/gen/dart".toList] := by
  have hread : (project (Plain.library twoKinds twoKindsValue)
      (Utf8.encode twoKinds)).disk.readText projectFile = .ok twoKinds :=
    Disk.readText_eq_ok_iff.2 ⟨twoKinds, ⟨noNull_projectFile, rfl⟩, by decide +kernel⟩
  obtain ⟨hload, hdecides, -⟩ :=
    load_decides (Plain.library twoKinds twoKindsValue) hread (Path.ofText ['/'])
  have hvalue := hload twoKindsValue (Plain.load_library twoKinds twoKindsValue)
  have hdirs : (ofValue (Plain.library twoKinds twoKindsValue) (Path.ofText ['/']) projectFile
      twoKindsValue).toOption.map (fun c => c.outputDirs.map Place.text)
        = some [Points.ofText "/gen/dart".toList] := by decide +kernel
  obtain ⟨c, hc, hdirs⟩ := Option.map_eq_some_iff.1 hdirs
  cases hsaid : ofValue (Plain.library twoKinds twoKindsValue) (Path.ofText ['/']) projectFile
      twoKindsValue with
  | error f =>
    rw [hsaid] at hc
    cases hc
  | ok found =>
    rw [hsaid] at hc hvalue
    cases hc
    exact ⟨hread, c, (hdecides twoKindsValue).1.1 ⟨c, hsaid⟩, hvalue,
      ((hdecides twoKindsValue).2.1 c).1 hsaid, hdirs⟩

/-- A text with half of a surrogate pair, in a directory that is left again. -/
def halfPath : Points := [.char '/', .half 0] ++ Points.ofText "/../x".toList

/-- A document with one target, whose output directory is `halfPath`. -/
def halfPathText : Text := "generate:\n  k:\n    outputDir: \"/\\ud800/../x\"\n".toList

/-- What `halfPathText` says. -/
def halfPathValue : Plain :=
  .mapping [(.ofText "generate", .mapping [(.ofText "k",
    .mapping [(.ofText "outputDir", .text halfPath)])])]

/-- An output directory that is a text without the null character may still be no place: half of a
surrogate pair cannot be written in the name of a file. -/
theorem not_loaded_halfPath :
    CodePoint.char '\x00' ∉ halfPath
      ∧ load (Plain.library halfPathText halfPathValue)
          (project (Plain.library halfPathText halfPathValue) (Utf8.encode halfPathText)).disk
          (Path.ofText ['/']) projectFile
        = .error (.noPlace (.unwritable ⟨1, 0, 1⟩)) := by
  have hread : (project (Plain.library halfPathText halfPathValue)
      (Utf8.encode halfPathText)).disk.readText projectFile = .ok halfPathText :=
    Disk.readText_eq_ok_iff.2 ⟨halfPathText, ⟨noNull_projectFile, rfl⟩, by decide +kernel⟩
  refine ⟨by decide, ?_⟩
  rw [load_eq_ofValue hread (Plain.load_library halfPathText halfPathValue)]
  rfl

end Connector

end GqlScan
