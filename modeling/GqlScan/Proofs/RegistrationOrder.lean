import Mathlib.Data.Finset.Card
import Mathlib.Data.List.Induction
import GqlScan.Proofs.Homonyms

/-!
# First registrations and last ones

Nested types keep one entry for each name. Registering a name that is there puts the new fields in
the place of the old ones, and a new name goes to the end. So the names stand in the order of their
first registrations while the fields are those of the last, on runs of any length, and whatever is
looked up in between.

Main statement: `step_after_calls`.
-/

namespace GqlScan.NestedTypes

open Text

/-! ## Calls -/

/-- What nested types can be asked. -/
inductive Call where
  /-- to register fields under a name -/
  | register (name : Text) (fields : List Field)
  /-- the fields registered under a name -/
  | fields (name : Text)
  /-- whether a name is registered -/
  | holds (name : Text)
  /-- the registered names -/
  | names
  /-- the number of registered names -/
  | size
  deriving DecidableEq, Repr

/-- What nested types can answer. -/
inductive Answer where
  | registered
  | fields (found : Option (List Field))
  | holds (held : Bool)
  | names (all : List Text)
  | size (count : Nat)
  deriving DecidableEq, Repr

/-- Answer a call; the nested types afterwards come with the answer. -/
def step (types : NestedTypes) : Call → NestedTypes × Answer
  | .register name fields => (types.register name fields, .registered)
  | .fields name => (types, .fields (types.get? name))
  | .holds name => (types, .holds (types.contains name))
  | .names => (types, .names types.names)
  | .size => (types, .size types.size)

/-- The nested types after some calls. -/
def after (types : NestedTypes) (calls : List Call) : NestedTypes :=
  calls.foldl (fun types call => (step types call).1) types

/-- What a call registers. -/
def Call.registered? : Call → Option (Text × List Field)
  | .register name selections => some (name, selections)
  | .fields _ | .holds _ | .names | .size => none

/-- The names that some calls register, one for each registration. -/
def registeredNames (calls : List Call) : List Text :=
  (calls.filterMap Call.registered?).map Prod.fst

/-- The fields that some calls register last under a name. -/
def lastRegistered? (name : Text) (calls : List Call) : Option (List Field) :=
  ((calls.filterMap Call.registered?).filter fun entry => entry.1 = name).getLast?.map Prod.snd

/-- A call registers what it registers, and a lookup nothing. -/
theorem step_types (types : NestedTypes) (call : Call) :
    (step types call).1 = types.registerAll call.registered?.toList := by
  cases call with
  | register name fields => rfl
  | fields name => rfl
  | holds name => rfl
  | names => rfl
  | size => rfl

/-- **Only registrations are left of any calls.** -/
theorem after_eq (types : NestedTypes) (calls : List Call) :
    after types calls = types.registerAll (calls.filterMap Call.registered?) := by
  induction calls generalizing types with
  | nil => rfl
  | cons call calls ih =>
    have hstep : after types (call :: calls) = after (step types call).1 calls := rfl
    rw [hstep, ih, step_types, ← registerAll_append]
    cases hcall : call.registered? with
    | none =>
      rw [List.filterMap_cons_none hcall]
      rfl
    | some entry =>
      rw [List.filterMap_cons_some hcall]
      rfl

/-- Lookups leave the nested types as they are, wherever they come between registrations. -/
theorem after_filter (types : NestedTypes) (calls : List Call) :
    after types (calls.filter fun call => call.registered?.isSome) = after types calls := by
  rw [after_eq, after_eq, List.filterMap_filter]
  refine congrArg types.registerAll (List.filterMap_congr ?_)
  intro call _
  cases call <;> rfl

/-! ## Names -/

section

variable {types : NestedTypes} {name : Text} {entries : List (Text × List Field)}

theorem names_register (types : NestedTypes) (name : Text) (fields : List Field) :
    (types.register name fields).names
      = if name ∈ types.names then types.names else types.names ++ [name] :=
  map_fst_put name fields types.entries

theorem registerAll_concat (types : NestedTypes) (entries : List (Text × List Field))
    (entry : Text × List Field) :
    types.registerAll (entries ++ [entry])
      = (types.registerAll entries).register entry.1 entry.2 :=
  registerAll_append types entries [entry]

/-- Registering a name makes it one of the names and takes none away. -/
theorem mem_names_register {fields : List Field} {m : Text} :
    m ∈ (types.register name fields).names ↔ m ∈ types.names ∨ m = name := by
  rw [names_register]
  by_cases hold : name ∈ types.names
  · rw [if_pos hold]
    constructor
    · intro hm
      exact Or.inl hm
    · intro hm
      rcases hm with hm | rfl
      · exact hm
      · exact hold
  · rw [if_neg hold]
    simp

theorem mem_names_registerAll :
    name ∈ (empty.registerAll entries).names ↔ name ∈ entries.map Prod.fst := by
  induction entries using List.reverseRecOn with
  | nil => exact Iff.rfl
  | append_singleton entries entry ih =>
    rw [registerAll_concat, mem_names_register, ih]
    simp

/-- **Names stand in the order in which they were registered first.** -/
theorem pairwise_names_registerAll (entries : List (Text × List Field)) :
    (empty.registerAll entries).names.Pairwise fun m n =>
      (entries.map Prod.fst).idxOf m < (entries.map Prod.fst).idxOf n := by
  induction entries using List.reverseRecOn with
  | nil => exact .nil
  | append_singleton entries entry ih =>
    -- one more registration leaves the first one of every name where it was
    have hfirst : ∀ m ∈ (empty.registerAll entries).names,
        ((entries ++ [entry]).map Prod.fst).idxOf m = (entries.map Prod.fst).idxOf m := by
      intro m hm
      rw [List.map_append]
      exact List.idxOf_append_of_mem (mem_names_registerAll.1 hm)
    have hkept : (empty.registerAll entries).names.Pairwise fun m n =>
        ((entries ++ [entry]).map Prod.fst).idxOf m
          < ((entries ++ [entry]).map Prod.fst).idxOf n := by
      refine ih.imp_of_mem ?_
      intro m n hm hn hlt
      rw [hfirst m hm, hfirst n hn]
      exact hlt
    rw [registerAll_concat, names_register]
    by_cases hold : entry.1 ∈ (empty.registerAll entries).names
    · rw [if_pos hold]
      exact hkept
    · rw [if_neg hold, List.pairwise_append]
      refine ⟨hkept, List.pairwise_singleton _ _, ?_⟩
      intro m hm n hn
      have hnew : entry.1 ∉ entries.map Prod.fst := mt mem_names_registerAll.2 hold
      have hlast : ((entries ++ [entry]).map Prod.fst).idxOf entry.1 = entries.length := by
        rw [List.map_append, List.idxOf_append_of_notMem hnew]
        simp
      have hlt : (entries.map Prod.fst).idxOf m < entries.length := by
        rw [← List.length_map Prod.fst]
        exact List.idxOf_lt_length_iff.2 (mem_names_registerAll.1 hm)
      rw [List.mem_singleton.1 hn, hfirst m hm, hlast]
      exact hlt

/-- There are as many names as were registered without counting any twice. -/
theorem size_registerAll (entries : List (Text × List Field)) :
    (empty.registerAll entries).size = (entries.map Prod.fst).toFinset.card := by
  have hsame : (empty.registerAll entries).names.toFinset = (entries.map Prod.fst).toFinset := by
    ext name
    rw [List.mem_toFinset, List.mem_toFinset, mem_names_registerAll]
  have hnodup : (empty.registerAll entries).names.Nodup := (empty.registerAll entries).nodup
  rw [← hsame, List.toFinset_card_of_nodup hnodup]
  exact (List.length_map _).symm

/-! ## Fields -/

/-- **Under a name stand the fields that were registered last.** -/
theorem get?_registerAll (types : NestedTypes) (entries : List (Text × List Field)) (name : Text) :
    (types.registerAll entries).get? name
      = ((entries.filter fun entry => entry.1 = name).getLast?.map Prod.snd).or
          (types.get? name) := by
  induction entries using List.reverseRecOn with
  | nil => rfl
  | append_singleton entries entry ih =>
    rw [registerAll_concat, get?_register, List.filter_append]
    by_cases hname : entry.1 = name
    · rw [if_pos hname.symm, List.filter_cons_of_pos (by simpa using hname), List.filter_nil,
        List.getLast?_concat]
      rfl
    · have hother : ¬ name = entry.1 := fun h => hname h.symm
      rw [if_neg hother, List.filter_cons_of_neg (by simpa using hname), List.filter_nil,
        List.append_nil, ih]

theorem get?_after (calls : List Call) (name : Text) :
    (after .empty calls).get? name = lastRegistered? name calls := by
  rw [after_eq, get?_registerAll]
  exact Option.or_none

/-- A name is registered exactly when fields are found under it. -/
theorem contains_iff (types : NestedTypes) (name : Text) :
    types.contains name = true ↔ types.get? name ≠ none := by
  unfold contains names get?
  rw [List.contains_iff_mem, ne_eq, List.lookup_eq_none_iff, List.mem_map]
  constructor
  · intro hname hother
    obtain ⟨entry, hentry, rfl⟩ := hname
    simpa using hother entry hentry
  · intro hfound
    by_contra hname
    refine hfound fun entry hentry => bne_iff_ne.2 ?_
    intro heq
    exact hname ⟨entry, hentry, heq.symm⟩

end

/--
**Nested types are a map in which the last registration wins and the first one gives the place.**

After any calls the names are those that were registered, each once and in the order of the first
registrations; their number is that of the different names. The fields under a name are those
registered last, none if it never was, and a name is held exactly when it has fields. Lookups may be
left out of the calls without any change.
-/
theorem step_after_calls (calls : List Call) :
    (∃ names, (step (after .empty calls) .names).2 = .names names
      ∧ names.Nodup ∧ (∀ name, name ∈ names ↔ name ∈ registeredNames calls)
      ∧ names.Pairwise fun m n =>
          (registeredNames calls).idxOf m < (registeredNames calls).idxOf n)
    ∧ (∀ name, (step (after .empty calls) (.fields name)).2
      = .fields (lastRegistered? name calls))
    ∧ (∀ name, (step (after .empty calls) (.holds name)).2 = .holds true
      ↔ (step (after .empty calls) (.fields name)).2 ≠ .fields none)
    ∧ (step (after .empty calls) .size).2 = .size (registeredNames calls).toFinset.card
    ∧ after .empty (calls.filter fun call => call.registered?.isSome) = after .empty calls := by
  refine ⟨⟨(after .empty calls).names, rfl, (after .empty calls).nodup, ?_, ?_⟩, ?_, ?_, ?_,
    after_filter .empty calls⟩
  · intro name
    rw [after_eq]
    exact mem_names_registerAll
  · rw [after_eq]
    exact pairwise_names_registerAll _
  · intro name
    exact congrArg Answer.fields (get?_after calls name)
  · intro name
    have hcontains := contains_iff (after .empty calls) name
    constructor
    · intro h hnone
      exact hcontains.1 (Answer.holds.inj h) (Answer.fields.inj hnone)
    · intro h
      exact congrArg Answer.holds (hcontains.2 fun hnone => h (congrArg Answer.fields hnone))
  · rw [after_eq]
    exact congrArg Answer.size (size_registerAll _)

/-- A name that is registered again keeps its place in front of one that came between, and answers
from before are of no consequence. -/
example :
    (step (after .empty [.register ['B'] [], .names, .register ['A'] [⟨['x'], Field.scalarType, []⟩],
        .fields ['B'], .register ['B'] [⟨['y'], Field.scalarType, []⟩]]) .names).2
      = .names [['B'], ['A']] := by decide

end GqlScan.NestedTypes
