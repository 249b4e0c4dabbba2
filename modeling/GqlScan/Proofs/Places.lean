import Mathlib.Data.List.TakeWhile
import GqlScan.Place
import GqlScan.Proofs.AbsolutePaths
import GqlScan.Proofs.Files

/-!
# Which texts name places

The names on the way to a place are looked up one after another, and the first with a code point
that no file name can hold is the end of it. Slashes and dots are not of that kind, so nothing is
lost by cutting at slashes and by leaving single dots out: a text names a place exactly when none of
its code points is unfit.

Main statement: `find_eq_ok_iff`.
-/

namespace GqlScan

open Text

/-! ## Pieces -/

namespace Text

variable {α : Type}

/-- What is looked for is found in the pieces of a text, unless it is what the text is cut at. -/
theorem any_splitOn [DecidableEq α] {p : α → Bool} {c : α} (hc : p c = false) (t : List α) :
    (splitOn c t).any (·.any p) = t.any p := by
  induction t with
  | nil => rfl
  | cons d t ih =>
    rw [splitOn]
    split
    · rename_i heq
      rw [List.any_cons, ih, List.any_cons, heq, hc]
      rfl
    · split
      · rename_i hnil
        rw [hnil] at ih
        rw [List.any_cons, List.any_cons, List.any_cons, ← ih, Bool.or_assoc]
        rfl
      · rename_i piece pieces hpieces
        rw [hpieces, List.any_cons] at ih
        rw [List.any_cons, List.any_cons, List.any_cons, ← ih, Bool.or_assoc]

theorem any_join {p : α → Bool} {separator : List α} (h : separator.any p = false)
    (ts : List (List α)) : (join separator ts).any p = ts.any (·.any p) := by
  induction ts with
  | nil => rfl
  | cons t ts ih =>
    cases ts with
    | nil => exact (Bool.or_false _).symm
    | cons u ts =>
      rw [join, List.any_append, List.any_append, h, ih, Bool.or_false]
      rfl

end Text

namespace CodePoint

/-- A code point that can be no part of the name of a file: the null character, or half of a
surrogate pair that stands for no byte. -/
def Unfit : CodePoint → Prop
  | char c => c = '\x00'
  | half n => ¬ (0xDC80 ≤ 0xD800 + n.val ∧ 0xD800 + n.val ≤ 0xDCFF)

/-- Whether a code point is unfit. -/
def isUnfit (p : CodePoint) : Bool := p == char '\x00' || p.isUnwritable

theorem isUnfit_iff {p : CodePoint} : p.isUnfit = true ↔ p.Unfit := by
  cases p with
  | char c => simp [isUnfit, isUnwritable, Unfit]
  | half n =>
    have hn : (half n == char '\x00') = false := rfl
    rw [isUnfit, hn, Bool.false_or, isUnwritable, Bool.or_eq_true, decide_eq_true_eq,
      decide_eq_true_eq, Unfit]
    omega

end CodePoint

namespace Points

theorem any_isUnfit_eq_false_iff {t : Points} :
    t.any CodePoint.isUnfit = false ↔ ∀ p ∈ t, ¬ p.Unfit := by
  simp only [List.any_eq_false, CodePoint.isUnfit_iff]

/-- The names that are read from a text hold all that is in it but slashes and single dots. -/
theorem any_names {p : CodePoint → Bool} (hslash : p (.char '/') = false)
    (hdot : p (.char '.') = false) (t : Points) : t.names.any (·.any p) = t.any p := by
  have hname : ∀ name : Points,
      ((name != [] && name != [.char '.']) && name.any p) = name.any p := by
    intro name
    cases hany : name.any p with
    | false => exact Bool.and_false _
    | true =>
      have hne : (name != []) = true := bne_iff_ne.2 (by rintro rfl; cases hany)
      have hdots : (name != [.char '.']) = true := by
        refine bne_iff_ne.2 ?_
        rintro rfl
        rw [List.any_cons, hdot] at hany
        cases hany
      rw [hne, hdots]
      rfl
  unfold names
  rw [List.any_filter]
  simp only [hname]
  exact any_splitOn hslash t

theorem encodeError?_isSome (t : Points) :
    t.encodeError?.isSome = t.any CodePoint.isUnwritable := by
  unfold encodeError?
  cases hrest : t.dropWhile (!·.isUnwritable) with
  | nil =>
    refine (List.any_eq_false.2 fun p hp => ?_).symm
    simpa using List.dropWhile_eq_nil_iff.1 hrest p hp
  | cons p rest =>
    have hp : p.isUnwritable = true := by
      have hhead := List.head?_dropWhile_not (fun q : CodePoint => !q.isUnwritable) t
      rw [hrest] at hhead
      simpa using hhead
    have hmem : p ∈ t := (List.dropWhile_suffix _).subset (hrest ▸ List.mem_cons_self)
    rw [List.any_eq_true.2 ⟨p, hmem, hp⟩]
    cases p with
    | char c => cases hp
    | half n => rfl

end Points

namespace Place

/-! ## Looking up -/

theorem lookupFault?_isSome (path : Points) :
    (lookupFault? path).isSome = path.any CodePoint.isUnfit := by
  have hparts : path.any CodePoint.isUnfit
      = (path.contains (.char '\x00') || path.any CodePoint.isUnwritable) := by
    induction path with
    | nil => rfl
    | cons p path ih =>
      have hp : p.isUnfit = (CodePoint.char '\x00' == p || p.isUnwritable) :=
        congrArg (· || _) (BEq.comm)
      rw [List.any_cons, List.contains_cons, List.any_cons, ih, hp]
      simp only [Bool.or_assoc, Bool.or_left_comm]
  have hencode := Points.encodeError?_isSome path
  unfold lookupFault?
  rw [hparts, ← hencode]
  cases path.encodeError? with
  | some error => exact (Bool.or_true _).symm
  | none => cases path.contains (.char '\x00') <;> rfl

/-- **Some names are looked up without a fault when none of them holds what is unfit.** -/
theorem fault?_isSome {start : Points} (hstart : start.any CodePoint.isUnfit = false)
    (names : List Points) {way : List Points}
    (hway : way.any (·.any CodePoint.isUnfit) = false) :
    (fault? start way names).isSome = names.any (·.any CodePoint.isUnfit) := by
  have hup : up.any CodePoint.isUnfit = false := by decide
  induction names generalizing way with
  | nil => rfl
  | cons name rest ih =>
    have hgrown : ∀ {next : Points}, next.any CodePoint.isUnfit = false →
        (way ++ [next]).any (·.any CodePoint.isUnfit) = false := by
      intro next hnext
      rw [List.any_append, hway, List.any_cons, hnext]
      rfl
    rw [fault?, List.any_cons]
    split
    · rename_i hname
      have hleft : (leave start way).any (·.any CodePoint.isUnfit) = false := by
        unfold leave
        split
        · exact hgrown hup
        · rw [List.any_eq_false] at hway ⊢
          exact fun n hn => hway n ((List.dropLast_sublist _).subset hn)
      rw [ih hleft, hname, hup, Bool.false_or]
    · have hlookup := lookupFault?_isSome (start ++ join [.char '/'] (way ++ [name]))
      have hslash : [CodePoint.char '/'].any CodePoint.isUnfit = false := by decide
      rw [List.any_append, hstart, any_join hslash, List.any_append, hway, List.any_cons,
        List.any_nil, Bool.false_or, Bool.false_or, Bool.or_false] at hlookup
      rw [← hlookup]
      split
      · rename_i hfault
        rw [hfault]
        rfl
      · rename_i hnone
        rw [hnone] at hlookup ⊢
        rw [ih (hgrown hlookup.symm)]
        rfl

/-! ## Finding -/

theorem any_ofText {p : Path} (h : p.NoNull) :
    (p.parts.map Points.ofText).any (·.any CodePoint.isUnfit) = false := by
  rw [List.any_map, List.any_eq_false]
  intro part hpart hunfit
  obtain ⟨point, hpoint, hbad⟩ := List.any_eq_true.1 hunfit
  obtain ⟨c, hc, rfl⟩ := List.mem_map.1 hpoint
  have hnull : c = '\x00' := by
    rw [CodePoint.isUnfit, CodePoint.isUnwritable, Bool.or_false, beq_iff_eq] at hbad
    exact CodePoint.char.inj hbad
  exact h part hpart (hnull ▸ hc)

/-- The names on the way to what is found inside a folder, which is seen from a directory. -/
def outset (directory folder : Path) (t : Points) : List Points :=
  if t.head? = some (.char '/') then []
  else
    ((if folder.anchor = .relative then directory.parts else []) ++ folder.parts).map Points.ofText

/-- Code points lead to a place inside a folder: all of them can stand in the name of a file, and
the names on the way are those of the folder, unless there is a slash in front, and the pieces
between slashes, without double dots. -/
structure Leads (directory folder : Path) (t : Points) (place : Place) : Prop where
  fit : ∀ p ∈ t, ¬ p.Unfit
  names : Path.Resolves [.char '.', .char '.']
    (outset directory folder t
      ++ (splitOn (.char '/') t).filter (fun name => name != [] && name != [.char '.']))
    place.names

/-- Code points are looked up from a base on without a fault when none of them is unfit. -/
theorem fault?_isSome_of_base {base : Path} (h : base.NoNull) (t : Points) :
    (fault? (if base.anchor = .relative then [] else [.char '/']) []
      (base.parts.map Points.ofText ++ t.names)).isSome = t.any CodePoint.isUnfit := by
  have hslash : (CodePoint.char '/').isUnfit = false := by decide
  have hdot : (CodePoint.char '.').isUnfit = false := by decide
  have hstart : (if base.anchor = .relative then [] else [CodePoint.char '/']).any
      CodePoint.isUnfit = false := by
    split <;> decide
  rw [fault?_isSome hstart _ rfl, List.any_append, any_ofText h, Bool.false_or,
    Points.any_names hslash hdot]

section

variable {folder : Path} (hfolder : folder.NoNull) (directory : Path) (t : Points)
include hfolder

/-- What is found, and whether anything is. -/
theorem find_eq :
    (t.any CodePoint.isUnfit = true ∧ ∃ fault, find directory folder t = .error fault)
      ∨ t.any CodePoint.isUnfit = false
        ∧ find directory folder t
          = .ok ⟨Path.resolve up (outset directory folder t ++ t.names)⟩ := by
  -- the base, whatever it is, holds no null character, and the names up to it are the outset
  obtain ⟨base, hbase⟩ : ∃ base : Path,
      base = if t.head? = some (.char '/') then ⟨.slash, []⟩ else folder := ⟨_, rfl⟩
  have hnull : base.NoNull := by
    rw [hbase]
    split
    · exact nofun
    · exact hfolder
  have houtset : (if base.anchor = .relative then directory.parts.map Points.ofText else [])
      ++ base.parts.map Points.ofText = outset directory folder t := by
    unfold outset
    rw [hbase]
    split
    · rfl
    · rw [List.map_append]
      split <;> rfl
  have hlookup := fault?_isSome_of_base hnull t
  unfold find
  dsimp only
  rw [← hbase, ← List.append_assoc, houtset, ← hlookup]
  cases fault? (if base.anchor = .relative then [] else [.char '/']) []
      (base.parts.map Points.ofText ++ t.names) with
  | some fault => exact .inl ⟨rfl, fault, rfl⟩
  | none => exact .inr ⟨rfl, rfl⟩

/-- **Code points name a place exactly when they lead there.** -/
theorem find_eq_ok_iff {place : Place} :
    find directory folder t = .ok place ↔ Leads directory folder t place := by
  rcases find_eq hfolder directory t with ⟨hunfit, fault, hfind⟩ | ⟨hfit, hfind⟩
  · rw [hfind]
    refine iff_of_false nofun fun h => ?_
    rw [Points.any_isUnfit_eq_false_iff.2 h.fit] at hunfit
    cases hunfit
  · rw [hfind]
    constructor
    · rintro ⟨⟩
      exact ⟨Points.any_isUnfit_eq_false_iff.1 hfit, Path.resolves_resolve _⟩
    · rintro ⟨-, hnames⟩
      obtain ⟨names⟩ := place
      exact congrArg (fun names => Except.ok (Place.mk names)) (Path.resolves_iff.1 hnames)

/-- Code points name a place exactly when none of them is unfit. -/
theorem isOk_find_iff :
    (find directory folder t).isOk = true ↔ ∀ p ∈ t, ¬ p.Unfit := by
  rw [← Points.any_isUnfit_eq_false_iff]
  rcases find_eq hfolder directory t with ⟨hunfit, fault, hfind⟩ | ⟨hfit, hfind⟩
  · rw [hfind, hunfit]
    exact iff_of_false Bool.false_ne_true Bool.noConfusion
  · rw [hfind, hfit]
    exact iff_of_true rfl rfl

end

end Place

end GqlScan
