import GqlScan.Proofs.Bytes
import GqlScan.Proofs.Readers
import GqlScan.Uri

/-!
# Paths written as URIs

A path is written as a URI by its UTF-8: bytes that stand for letters, digits, slashes and a few
marks stay, every other one becomes a percent sign with two hexadecimal digits. No such URI holds a
character that ends a part of a URI, so cutting off scheme, authority, parameters, query and
fragment leaves the written path untouched, and only then are its bytes put together again. Percent
signs, question marks, number signs, semicolons, blanks and characters outside ASCII in the names of
files all survive.

Main statements: `unescape_escape` and `toPath_fileUri`.
-/

namespace GqlScan

open Text

/-! ## Suffixes -/

namespace Path

/-- A name has the suffix of a document when something stands in front of it. -/
theorem suffixOf_eq_documentSuffix_iff {name : Text} :
    suffixOf name = documentSuffix ↔ ∃ stem, stem ≠ [] ∧ name = stem ++ documentSuffix := by
  constructor
  · intro h
    unfold suffixOf at h
    dsimp only at h
    split at h
    · rename_i hdots
      obtain ⟨hdot, -, hlength⟩ := hdots
      -- what is read from the end up to the last dot
      have hparts := before_append_after (List.mem_reverse.2 hdot)
      have htail : before '.' name.reverse = ['l', 'q', 'g'] := by
        rw [← List.reverse_inj]
        exact (List.cons.inj h).2
      have hname : name = (after '.' name.reverse).reverse ++ documentSuffix := by
        rw [htail] at hparts
        rw [← List.reverse_inj, ← hparts, List.reverse_append, List.reverse_reverse]
        rfl
      refine ⟨_, fun hstem => ?_, hname⟩
      rw [List.length_reverse] at hlength
      rw [hstem] at hname
      have hshort := congrArg List.length hname
      have htake := congrArg List.length htail
      change name.length = 4 at hshort
      change (name.reverse.takeWhile (· != '.')).length = 3 at htake
      omega
    · cases h
  · rintro ⟨stem, hne, rfl⟩
    have hpos := List.length_pos_of_ne_nil hne
    have htail : ((stem ++ documentSuffix).reverse.takeWhile (· != '.')).reverse
        = ['g', 'q', 'l'] := by
      rw [List.reverse_append]
      rfl
    have hdot : '.' ∈ stem ++ documentSuffix := List.mem_append_right _ List.mem_cons_self
    have hlength : 4 < (stem ++ documentSuffix).length := by
      rw [List.length_append]
      change 4 < stem.length + 4
      omega
    unfold suffixOf
    dsimp only
    rw [htail]
    exact if_pos ⟨hdot, List.cons_ne_nil _ _, hlength⟩

/-- A path names a document when its last component ends in the suffix and goes on in front. -/
theorem isDocument_iff {p : Path} :
    p.isDocument = true ↔ ∃ stem, stem ≠ [] ∧ p.name = stem ++ documentSuffix := by
  unfold isDocument
  rw [beq_iff_eq]
  exact suffixOf_eq_documentSuffix_iff

end Path

namespace Uri

/-! ## Escaping -/

/-- The characters that are written as they are: ASCII letters and digits, four marks, and the
slashes between the components of a path. -/
def isPlain (c : Char) : Bool := c.isAlphanum || ['-', '.', '_', '~', '/'].contains c

/-- The hexadecimal digit of a number below sixteen. -/
def hexDigit (n : Nat) : Char := Char.ofNat (if n < 10 then 0x30 + n else 0x41 + (n - 10))

/-- A byte as it stands in a URI. -/
def escapeByte (b : UInt8) : Text :=
  if isPlain (Char.ofNat b.toNat) then [Char.ofNat b.toNat]
  else ['%', hexDigit (b.toNat / 16), hexDigit (b.toNat % 16)]

/-- A text as it stands in a URI. -/
def escape (t : Text) : Text := (Utf8.encode t).flatMap escapeByte

/-- The URI of the file at a path. -/
def fileUri (path : Text) : Text := "file://".toList ++ escape path

theorem hexDigit?_hexDigit : ∀ n < 16, hexDigit? (hexDigit n) = some n := by decide

theorem isPlain_hexDigit : ∀ n < 16, isPlain (hexDigit n) = true := by decide

/-- A text that is written in a URI consists of plain characters and percent signs. -/
theorem isPlain_of_mem_escape {t : Text} {c : Char} (h : c ∈ escape t) :
    isPlain c = true ∨ c = '%' := by
  obtain ⟨b, -, hc⟩ := List.mem_flatMap.1 h
  have hbyte := b.toNat_lt
  unfold escapeByte at hc
  split at hc
  · rename_i hplain
    rw [List.mem_singleton.1 hc]
    exact .inl hplain
  · simp only [List.mem_cons, List.not_mem_nil, or_false] at hc
    rcases hc with rfl | rfl | rfl
    · exact .inr rfl
    · exact .inl (isPlain_hexDigit _ (by omega))
    · exact .inl (isPlain_hexDigit _ (by omega))

/-- So it does not hold a character that is neither. -/
theorem not_mem_escape {c : Char} (hplain : isPlain c = false) (hsign : c ≠ '%') (t : Text) :
    c ∉ escape t := by
  intro h
  rcases isPlain_of_mem_escape h with hc | hc
  · rw [hplain] at hc
    cases hc
  · exact hsign hc

theorem isAscii_of_isPlain {c : Char} (h : isPlain c = true) : isAscii c = true := by
  have hlt : c.toNat < 0x80 := by
    rcases Bool.or_eq_true_iff.1 h with hletter | hmark
    · exact toNat_lt_of_isNameChar (by rw [isNameChar, hletter, Bool.true_or])
    · have hmark := List.contains_iff_mem.1 hmark
      simp only [List.mem_cons, List.not_mem_nil, or_false] at hmark
      rcases hmark with rfl | rfl | rfl | rfl | rfl <;> decide
  exact decide_eq_true hlt

/-! ## Undoing -/

theorem unescapeBytes_cons_of_ne {c : Char} (h : c ≠ '%') (t : Text) :
    unescapeBytes (c :: t) = UInt8.ofNat c.toNat :: unescapeBytes t := by
  rw [unescapeBytes]
  exact fun _ _ _ hc => absurd hc h

/-- A byte is read back from what is written for it. -/
theorem unescapeBytes_escapeByte_append (b : UInt8) (t : Text) :
    unescapeBytes (escapeByte b ++ t) = b :: unescapeBytes t := by
  have hbyte := b.toNat_lt
  unfold escapeByte
  split
  · rename_i hplain
    have hne : Char.ofNat b.toNat ≠ '%' := by
      intro hsign
      rw [hsign] at hplain
      revert hplain
      decide
    have hvalid : (Char.ofNat b.toNat).toNat = b.toNat := by
      unfold Char.ofNat
      rw [dif_pos (.inl (by omega))]
      rfl
    rw [List.singleton_append, unescapeBytes_cons_of_ne hne, hvalid, UInt8.ofNat_toNat]
  · have hdigits : b.toNat / 16 * 16 + b.toNat % 16 = b.toNat := by omega
    rw [List.cons_append, List.cons_append, List.cons_append, List.nil_append, unescapeBytes,
      hexDigit?_hexDigit _ (by omega), hexDigit?_hexDigit _ (by omega)]
    dsimp only
    rw [hdigits, UInt8.ofNat_toNat]

theorem unescapeBytes_escape (t : Text) : unescapeBytes (escape t) = Utf8.encode t := by
  unfold escape
  induction Utf8.encode t with
  | nil => rfl
  | cons b bytes ih => rw [List.flatMap_cons, unescapeBytes_escapeByte_append, ih]

/-- An ASCII text is a single run of bytes. -/
theorem unescape_of_ascii {t : Text} (h : ∀ c ∈ t, isAscii c = true) :
    unescape t = Utf8.decodeLenient (unescapeBytes t) := by
  cases t with
  | nil => rw [unescape, unescapeBytes, Utf8.decodeLenient, Utf8.pieces, List.map_nil]
  | cons c rest =>
    have hrest : ∀ d ∈ rest, isAscii d = true := fun d hd => h d (List.mem_cons_of_mem c hd)
    rw [unescape, if_pos (h c List.mem_cons_self), List.takeWhile_eq_self_iff.2 hrest,
      List.dropWhile_eq_nil_iff.2 hrest, unescape, List.append_nil]

/-- **A text that is written in a URI is read back as it was.** -/
theorem unescape_escape (t : Text) : unescape (escape t) = t := by
  have hascii : ∀ c ∈ escape t, isAscii c = true := by
    intro c hc
    rcases isPlain_of_mem_escape hc with hplain | rfl
    · exact isAscii_of_isPlain hplain
    · rfl
  rw [unescape_of_ascii hascii, unescapeBytes_escape, Utf8.decodeLenient_encode]

/-! ## The parts of a URI -/

/-- A slash in front of a path stays in front of what is written for it. -/
theorem escape_slash_cons (t : Text) : escape ('/' :: t) = '/' :: escape t := by
  unfold escape Utf8.encode
  rw [List.flatMap_cons, List.flatMap_append]
  rfl

/-- The path part of the URI of a file is its path as it is written. -/
theorem pathPart_fileUri (t : Text) : pathPart (fileUri ('/' :: t)) = .ok (escape ('/' :: t)) := by
  have hjunk : (fileUri ('/' :: t)).filter (fun c => !isJunk c) = fileUri ('/' :: t) := by
    rw [List.filter_eq_self]
    intro c hc
    rcases List.mem_append.1 hc with hc | hc
    · have hfile : ("file://".toList).all (fun d => !isJunk d) = true := by decide
      exact List.all_eq_true.1 hfile c hc
    · have hne : ∀ d, isPlain d = false → d ≠ '%' → c ≠ d := fun d hplain hsign heq =>
        not_mem_escape hplain hsign _ (heq ▸ hc)
      simp only [isJunk, Bool.not_eq_true', Bool.or_eq_false_iff, beq_eq_false_iff_ne]
      exact ⟨⟨hne _ (by decide) (by decide), hne _ (by decide) (by decide)⟩,
        hne _ (by decide) (by decide)⟩
  -- the first letter of the scheme stands in front, so no leading blank is dropped
  have hleading : (fileUri ('/' :: t)).dropWhile isLeading = fileUri ('/' :: t) := rfl
  have hscheme : splitScheme (fileUri ('/' :: t))
      = (['f', 'i', 'l', 'e'], '/' :: '/' :: escape ('/' :: t)) := rfl
  have hauthority : splitAuthority ('/' :: '/' :: escape ('/' :: t))
      = ([], escape ('/' :: t)) := by
    rw [escape_slash_cons]
    rfl
  have hfragment : before '#' (escape ('/' :: t)) = escape ('/' :: t) :=
    before_of_not_mem (not_mem_escape (by decide) (by decide) _)
  have hquery : before '?' (escape ('/' :: t)) = escape ('/' :: t) :=
    before_of_not_mem (not_mem_escape (by decide) (by decide) _)
  have hparameters : schemesWithParameters.contains ['f', 'i', 'l', 'e'] = false := by decide
  unfold pathPart
  rw [hleading, hjunk, hscheme]
  dsimp only
  rw [hauthority]
  change Except.ok (if schemesWithParameters.contains ['f', 'i', 'l', 'e'] = true
    then dropParameters (before '?' (before '#' (escape ('/' :: t))))
    else before '?' (before '#' (escape ('/' :: t)))) = _
  rw [hfragment, hquery, hparameters, if_neg Bool.false_ne_true]

/-- A URI names a document exactly when the path behind it does. -/
theorem isDocument_of_toPath {uri : Text} {file : Path} (h : toPath uri = .ok file) :
    isDocument uri = .ok file.isDocument := by
  unfold isDocument
  rw [h]
  rfl

/--
**The URI of a file names the path it was written for.**

This holds for every absolute path, also for one that begins with two slashes, which are not taken
for those in front of an authority. The URI names a document exactly when the last component of the
path ends in the suffix of documents, with something in front of it.
-/
theorem toPath_fileUri {path : Text} (h : path.head? = some '/') :
    toPath (fileUri path) = .ok (Path.ofText path)
      ∧ ∃ answer, isDocument (fileUri path) = .ok answer
        ∧ (answer = true
          ↔ ∃ stem, stem ≠ [] ∧ (Path.ofText path).name = stem ++ Path.documentSuffix) := by
  obtain ⟨t, rfl⟩ : ∃ t, path = '/' :: t := List.head?_eq_some_iff.1 h
  have hpath : toPath (fileUri ('/' :: t)) = .ok (Path.ofText ('/' :: t)) := by
    unfold toPath
    rw [pathPart_fileUri]
    exact congrArg (fun u => Except.ok (Path.ofText u)) (unescape_escape ('/' :: t))
  exact ⟨hpath, (Path.ofText ('/' :: t)).isDocument, isDocument_of_toPath hpath,
    Path.isDocument_iff⟩

/-- A path with two slashes in front and a name that holds a percent sign, a number sign, a question
mark, a semicolon, a blank and characters outside ASCII. -/
def reservedPath : Text := "//tmp/50%#?; größe☃.gql".toList

theorem toPath_fileUri_reservedPath :
    reservedPath.head? = some '/'
      ∧ fileUri reservedPath = "file:////tmp/50%25%23%3F%3B%20gr%C3%B6%C3%9Fe%E2%98%83.gql".toList
      ∧ toPath (fileUri reservedPath) = .ok (Path.ofText reservedPath)
      ∧ isDocument (fileUri reservedPath) = .ok true := by
  have hslash : reservedPath.head? = some '/' := rfl
  obtain ⟨hpath, answer, hanswer, hiff⟩ := toPath_fileUri hslash
  have hname : (Path.ofText reservedPath).name = "50%#?; größe☃".toList ++ Path.documentSuffix := by
    decide +kernel
  have htrue : answer = true := hiff.2 ⟨_, by decide, hname⟩
  refine ⟨hslash, by decide +kernel, hpath, ?_⟩
  rw [hanswer, htrue]

end Uri

end GqlScan
