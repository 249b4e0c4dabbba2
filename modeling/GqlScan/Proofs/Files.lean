import GqlScan.Disk
import GqlScan.Proofs.Bytes

/-!
# What files hold

A file is there when its path holds no null character and some bytes are found at it. It holds a
text when these bytes are the UTF-8 of the text, and then the text is read, with unified line ends;
no other file can be read.

Main statement: `readText_eq_ok_iff`.
-/

namespace GqlScan

open Text

namespace Path

/-- A path without the null character. -/
def NoNull (p : Path) : Prop := ∀ part ∈ p.parts, '\x00' ∉ part

theorem hasNull_eq_false_iff {p : Path} : p.hasNull = false ↔ p.NoNull := by
  unfold hasNull NoNull
  simp only [List.any_eq_false, List.contains_iff_mem]

theorem NoNull.parent {p : Path} (h : p.NoNull) : p.parent.NoNull :=
  fun part hpart => h part ((List.dropLast_sublist _).subset hpart)

end Path

namespace Disk

variable {disk : Disk} {p : Path}

/-- There is a file at a path. -/
structure HasFile (disk : Disk) (p : Path) : Prop where
  noNull : p.NoNull
  bytes : ∃ bytes, disk p = .file bytes

/-- A file holds a text: its bytes are the UTF-8 of the text. -/
structure HoldsText (disk : Disk) (p : Path) (text : Text) : Prop where
  noNull : p.NoNull
  bytes : disk p = .file (Utf8.encode text)

theorem isFile_iff : disk.isFile p = true ↔ disk.HasFile p := by
  unfold isFile
  constructor
  · intro h
    cases hentry : disk p with
    | file bytes =>
      simp only [hentry, Bool.not_eq_true'] at h
      exact ⟨Path.hasNull_eq_false_iff.1 h, bytes, hentry⟩
    | _ =>
      rw [hentry] at h
      cases h
  · rintro ⟨hnull, bytes, hentry⟩
    rw [hentry]
    exact Bool.not_eq_true' _ ▸ Path.hasNull_eq_false_iff.2 hnull

theorem isFile_eq_false_iff : disk.isFile p = false ↔ ¬ disk.HasFile p := by
  rw [← isFile_iff, Bool.not_eq_true]

theorem HoldsText.hasFile {text : Text} (h : disk.HoldsText p text) : disk.HasFile p :=
  ⟨h.noNull, _, h.bytes⟩

theorem holds_of_hasFile (h : disk.HasFile p) : disk.holds p = true := by
  obtain ⟨hnull, bytes, hentry⟩ := h
  unfold holds
  rw [hentry]
  exact Bool.not_eq_true' _ ▸ Path.hasNull_eq_false_iff.2 hnull

/-- **What is read of a file is the text that it holds,** with line feeds for all line ends. -/
theorem readText_eq_ok_iff {content : Text} :
    disk.readText p = .ok content
      ↔ ∃ text, disk.HoldsText p text ∧ unifyLineFeeds text = content := by
  unfold readText
  constructor
  · intro h
    split at h
    · cases h
    · rename_i hnull
      cases hentry : disk p with
      | file bytes =>
        simp only [hentry] at h
        cases hdecode : Utf8.decode bytes with
        | ok text =>
          rw [hdecode] at h
          cases h
          rw [Utf8.decode_eq_ok_iff.1 hdecode] at hentry
          exact ⟨text, ⟨Path.hasNull_eq_false_iff.1 (Bool.not_eq_true _ ▸ hnull), hentry⟩, rfl⟩
        | error e =>
          rw [hdecode] at h
          cases h
      | _ =>
        rw [hentry] at h
        cases h
  · rintro ⟨text, ⟨hnull, hbytes⟩, rfl⟩
    rw [Path.hasNull_eq_false_iff.2 hnull, if_neg Bool.false_ne_true, hbytes]
    dsimp only
    rw [Utf8.decode_encode]

theorem HoldsText.readText {text : Text} (h : disk.HoldsText p text) :
    disk.readText p = .ok (unifyLineFeeds text) :=
  readText_eq_ok_iff.2 ⟨text, h, rfl⟩

theorem noNull_of_readText {content : Text} (h : disk.readText p = .ok content) : p.NoNull := by
  obtain ⟨text, htext, -⟩ := readText_eq_ok_iff.1 h
  exact htext.noNull

end Disk

end GqlScan
