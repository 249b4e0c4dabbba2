import GqlScan.Text.Utf8

/-!
# Texts written as bytes

The bytes of a text are decoded to the text, and no other bytes are. Each character is a piece of
its own, whatever bytes follow: its first byte announces as many more as there are, and since no
surrogate is a character and nothing is written longer than it must be, the second byte keeps to the
bounds announced. Within these bounds every piece is what is written for its character.

Main statements: `decode_eq_ok_iff` and `decodeLenient_encode`.
-/

namespace GqlScan.Text.Utf8

/-! ## Single bytes -/

/-- A byte behind the first one: six bits of a code point. -/
def trailing (n : Nat) : UInt8 := UInt8.ofNat (n % 64 + 0x80)

theorem toNat_trailing (n : Nat) : (trailing n).toNat = n % 64 + 0x80 :=
  UInt8.toNat_ofNat_of_lt' (show n % 64 + 0x80 < 256 by omega)

/-- A byte behind the first one adds six bits to what has been read. -/
theorem continuation_trailing {low high n : Nat} (hlow : low ≤ n % 64 + 0x80)
    (hhigh : n % 64 + 0x80 ≤ high) (width bits owed : Nat) (rest : List UInt8) :
    continuation width bits (owed + 1) low high (trailing n :: rest)
      = continuation (width + 1) (bits * 64 + n % 64) owed 0x80 0xBF rest := by
  rw [continuation, toNat_trailing, if_pos ⟨hlow, hhigh⟩, Nat.add_sub_cancel]

/-- The last byte completes the code point. -/
theorem continuation_last {low high n bits : Nat} {c : Char} (hlow : low ≤ n % 64 + 0x80)
    (hhigh : n % 64 + 0x80 ≤ high) (hc : bits * 64 + n % 64 = c.toNat) (width : Nat)
    (rest : List UInt8) :
    continuation width bits 1 low high (trailing n :: rest) = .char c (width + 1) := by
  rw [continuation_trailing hlow hhigh, continuation, hc, Char.ofNat_toNat]

theorem low_le_trailing (n : Nat) : 0x80 ≤ n % 64 + 0x80 := Nat.le_add_left _ _

theorem trailing_le_high (n : Nat) : n % 64 + 0x80 ≤ 0xBF := by omega

/-! ## First bytes -/

/-- A first byte announces some bytes and bits, with a given second byte within its bounds. -/
def Announces (b owed bits second : Nat) : Prop :=
  ∃ l ∈ lead? b, l.owed = owed ∧ l.bits = bits ∧ l.low ≤ second ∧ second ≤ l.high

theorem front_of_announces {b owed bits second : Nat} (hb : b < 256)
    (h : Announces b owed bits second) (rest : List UInt8) :
    ∃ low high, low ≤ second ∧ second ≤ high
      ∧ front (UInt8.ofNat b) rest = continuation 1 bits owed low high rest := by
  obtain ⟨l, hl, rfl, rfl, hlow, hhigh⟩ := h
  have hstart : ¬ b < 0x80 := by
    intro hsmall
    unfold lead? at hl
    rw [if_pos (by omega)] at hl
    cases hl
  refine ⟨l.low, l.high, hlow, hhigh, ?_⟩
  unfold front
  rw [UInt8.toNat_ofNat_of_lt' hb, if_neg hstart, Option.mem_def.1 hl]

theorem announces_two {v : Nat} (hlow : 0x7F < v) (hhigh : v ≤ 0x7FF) :
    Announces (v / 64 % 32 + 0xC0) 1 (v / 64) (v % 64 + 0x80) := by
  have hbits : v / 64 % 32 = v / 64 := Nat.mod_eq_of_lt (by omega)
  rw [hbits]
  unfold Announces lead?
  rw [if_neg (by omega), if_pos (by omega)]
  exact ⟨_, rfl, rfl, Nat.add_sub_cancel _ _, low_le_trailing v, trailing_le_high v⟩

theorem announces_three {v : Nat} (hlow : 0x7FF < v) (hhigh : v ≤ 0xFFFF)
    (hscalar : v < 0xD800 ∨ 0xDFFF < v) :
    Announces (v / 4096 % 16 + 0xE0) 2 (v / 4096) (v / 64 % 64 + 0x80) := by
  have hbits : v / 4096 % 16 = v / 4096 := Nat.mod_eq_of_lt (by omega)
  rw [hbits]
  unfold Announces lead?
  rw [if_neg (by omega), if_neg (by omega)]
  by_cases hfirst : v / 4096 = 0
  · rw [if_pos (by omega)]
    exact ⟨_, rfl, rfl, hfirst.symm, by dsimp only; omega, by dsimp only; omega⟩
  · rw [if_neg (by omega)]
    by_cases hsurrogates : v / 4096 = 0xD
    · rw [if_pos (by omega)]
      exact ⟨_, rfl, rfl, hsurrogates.symm, by dsimp only; omega, by dsimp only; omega⟩
    · rw [if_neg (by omega), if_pos (by omega)]
      exact ⟨_, rfl, rfl, Nat.add_sub_cancel _ _, by dsimp only; omega, by dsimp only; omega⟩

theorem announces_four {v : Nat} (hlow : 0xFFFF < v) (hhigh : v < 0x110000) :
    Announces (v / 262144 % 8 + 0xF0) 3 (v / 262144) (v / 4096 % 64 + 0x80) := by
  have hbits : v / 262144 % 8 = v / 262144 := Nat.mod_eq_of_lt (by omega)
  rw [hbits]
  unfold Announces lead?
  rw [if_neg (by omega), if_neg (by omega), if_neg (by omega), if_neg (by omega),
    if_neg (by omega)]
  by_cases hfirst : v / 262144 = 0
  · rw [if_pos (by omega)]
    exact ⟨_, rfl, rfl, hfirst.symm, by dsimp only; omega, by dsimp only; omega⟩
  · rw [if_neg (by omega)]
    by_cases hlast : v / 262144 = 4
    · rw [if_neg (by omega), if_pos (by omega)]
      exact ⟨_, rfl, rfl, hlast.symm, by dsimp only; omega, by dsimp only; omega⟩
    · rw [if_pos (by omega)]
      exact ⟨_, rfl, rfl, Nat.add_sub_cancel _ _, by dsimp only; omega, by dsimp only; omega⟩

/-- What a first byte announces: the bits that it holds itself, and bounds on the second byte that
keep to trailing bytes and exclude what is too long, surrogates and what is no code point. -/
theorem lead?_cases {b : Nat} {l : Lead} (h : lead? b = some l) :
    0x80 ≤ l.low ∧ l.high ≤ 0xBF
      ∧ ((l.owed = 1 ∧ b = l.bits + 0xC0 ∧ 2 ≤ l.bits ∧ l.bits < 32)
        ∨ (l.owed = 2 ∧ b = l.bits + 0xE0 ∧ l.bits < 16
          ∧ (l.bits = 0 → l.low = 0xA0) ∧ (l.bits = 0xD → l.high = 0x9F))
        ∨ (l.owed = 3 ∧ b = l.bits + 0xF0 ∧ l.bits ≤ 4
          ∧ (l.bits = 0 → l.low = 0x90) ∧ (l.bits = 4 → l.high = 0x8F))) := by
  unfold lead? at h
  split at h
  · cases h
  split at h
  · cases h
    refine ⟨Nat.le_refl _, Nat.le_refl _, .inl ⟨rfl, ?_, ?_, ?_⟩⟩ <;> dsimp only <;> omega
  split at h
  · cases h
    exact ⟨by decide, by decide, .inr (.inl ⟨rfl, by assumption, by decide, fun _ => rfl, nofun⟩)⟩
  split at h
  · cases h
    exact ⟨by decide, by decide, .inr (.inl ⟨rfl, by assumption, by decide, nofun, fun _ => rfl⟩)⟩
  split at h
  · cases h
    refine ⟨Nat.le_refl _, Nat.le_refl _, .inr (.inl ⟨rfl, ?_, ?_, ?_, ?_⟩)⟩ <;>
      dsimp only <;> omega
  split at h
  · cases h
    exact ⟨by decide, by decide, .inr (.inr ⟨rfl, by assumption, by decide, fun _ => rfl, nofun⟩)⟩
  split at h
  · cases h
    refine ⟨Nat.le_refl _, Nat.le_refl _, .inr (.inr ⟨rfl, ?_, ?_, ?_, ?_⟩)⟩ <;>
      dsimp only <;> omega
  split at h
  · cases h
    exact ⟨by decide, by decide, .inr (.inr ⟨rfl, by assumption, by decide, nofun, fun _ => rfl⟩)⟩
  · cases h

/-! ## Characters -/

theorem encodeChar_of_one {c : Char} (h : c.toNat ≤ 0x7F) :
    String.utf8EncodeChar c = [UInt8.ofNat c.toNat] := if_pos h

theorem encodeChar_of_two {c : Char} (hlow : 0x7F < c.toNat) (hhigh : c.toNat ≤ 0x7FF) :
    String.utf8EncodeChar c = [UInt8.ofNat (c.toNat / 64 % 32 + 0xC0), trailing c.toNat] :=
  (if_neg (Nat.not_le_of_lt hlow)).trans (if_pos hhigh)

theorem encodeChar_of_three {c : Char} (hlow : 0x7FF < c.toNat) (hhigh : c.toNat ≤ 0xFFFF) :
    String.utf8EncodeChar c
      = [UInt8.ofNat (c.toNat / 4096 % 16 + 0xE0), trailing (c.toNat / 64), trailing c.toNat] :=
  (if_neg (Nat.not_le_of_lt (Nat.lt_trans (by decide) hlow))).trans
    ((if_neg (Nat.not_le_of_lt hlow)).trans (if_pos hhigh))

theorem encodeChar_of_four {c : Char} (hlow : 0xFFFF < c.toNat) :
    String.utf8EncodeChar c
      = [UInt8.ofNat (c.toNat / 262144 % 8 + 0xF0), trailing (c.toNat / 4096),
        trailing (c.toNat / 64), trailing c.toNat] :=
  (if_neg (Nat.not_le_of_lt (Nat.lt_trans (by decide) hlow))).trans
    ((if_neg (Nat.not_le_of_lt (Nat.lt_trans (by decide) hlow))).trans
      (if_neg (Nat.not_le_of_lt hlow)))

/-- **The bytes of a character are a piece of their own,** whatever bytes follow. -/
theorem front_encodeChar (c : Char) (rest : List UInt8) :
    ∃ b more, String.utf8EncodeChar c = b :: more
      ∧ front b (more ++ rest) = .char c (more.length + 1) := by
  have hvalid : c.toNat < 0xD800 ∨ 0xDFFF < c.toNat ∧ c.toNat < 0x110000 := c.valid
  by_cases h1 : c.toNat ≤ 0x7F
  · refine ⟨_, [], encodeChar_of_one h1, ?_⟩
    unfold front
    rw [UInt8.toNat_ofNat_of_lt' (show c.toNat < 256 by omega), if_pos (by omega),
      Char.ofNat_toNat]
    rfl
  rw [Nat.not_le] at h1
  by_cases h2 : c.toNat ≤ 0x7FF
  · refine ⟨_, _, encodeChar_of_two h1 h2, ?_⟩
    have hlead := announces_two h1 h2
    obtain ⟨low, high, hlow, hhigh, hfront⟩ :=
      front_of_announces (by omega) hlead (trailing c.toNat :: rest)
    exact hfront.trans (continuation_last hlow hhigh (by omega) 1 rest)
  rw [Nat.not_le] at h2
  by_cases h3 : c.toNat ≤ 0xFFFF
  · refine ⟨_, _, encodeChar_of_three h2 h3, ?_⟩
    have hlead := announces_three h2 h3 (hvalid.imp_right And.left)
    obtain ⟨low, high, hlow, hhigh, hfront⟩ :=
      front_of_announces (by omega) hlead (trailing (c.toNat / 64) :: trailing c.toNat :: rest)
    refine hfront.trans ((continuation_trailing hlow hhigh _ _ _ _).trans ?_)
    exact continuation_last (low_le_trailing _) (trailing_le_high _) (by omega) 2 rest
  rw [Nat.not_le] at h3
  refine ⟨_, _, encodeChar_of_four h3, ?_⟩
  have hlead := announces_four h3 (by omega)
  obtain ⟨low, high, hlow, hhigh, hfront⟩ :=
    front_of_announces (by omega) hlead
      (trailing (c.toNat / 4096) :: trailing (c.toNat / 64) :: trailing c.toNat :: rest)
  refine hfront.trans ((continuation_trailing hlow hhigh _ _ _ _).trans ?_)
  refine (continuation_trailing (low_le_trailing _) (trailing_le_high _) _ _ _ _).trans ?_
  exact continuation_last (low_le_trailing _) (trailing_le_high _) (by omega) 3 rest

/-! ## Pieces -/

theorem toNat_ofNat {n : Nat} (h : n < 0xD800 ∨ 0xDFFF < n ∧ n < 0x110000) :
    (Char.ofNat n).toNat = n := by
  unfold Char.ofNat
  rw [dif_pos h]
  rfl

/-- A character that is not complete goes on with a trailing byte. -/
theorem exists_trailing {low high width bits owed w : Nat} {c : Char} {rest : List UInt8}
    (hlow : 0x80 ≤ low) (hhigh : high ≤ 0xBF)
    (h : continuation width bits (owed + 1) low high rest = .char c w) :
    ∃ n later, n < 64 ∧ low ≤ n + 0x80 ∧ n + 0x80 ≤ high ∧ rest = trailing n :: later
      ∧ continuation (width + 1) (bits * 64 + n) owed 0x80 0xBF later = .char c w := by
  cases rest with
  | nil => cases h
  | cons b later =>
    rw [continuation] at h
    split at h
    · rename_i hbounds
      have hb : (b.toNat - 0x80) % 64 + 0x80 = b.toNat := by omega
      refine ⟨b.toNat - 0x80, later, by omega, by omega, by omega, ?_, h⟩
      rw [trailing, hb, UInt8.ofNat_toNat]
    · cases h

/-- **A piece that is a character is what is written for it.** -/
theorem encodeChar_of_front {b : UInt8} {rest : List UInt8} {c : Char} {width : Nat}
    (h : front b rest = .char c width) :
    ∃ more later, String.utf8EncodeChar c = b :: more ∧ rest = more ++ later
      ∧ width = more.length + 1 := by
  unfold front at h
  split at h
  · rename_i hascii
    cases h
    have hc : (Char.ofNat b.toNat).toNat = b.toNat := toNat_ofNat (by omega)
    refine ⟨[], rest, ?_, rfl, rfl⟩
    rw [encodeChar_of_one (by omega), hc, UInt8.ofNat_toNat]
  · split at h
    · cases h
    · rename_i l hl
      obtain ⟨hlow, hhigh, hcases⟩ := lead?_cases hl
      obtain ⟨howed, hb, hbits⟩ | ⟨howed, hb, hbits⟩ | ⟨howed, hb, hbits⟩ := hcases
      · rw [howed] at h
        obtain ⟨n, later, hn, -, -, rfl, hdone⟩ := exists_trailing hlow hhigh h
        cases hdone
        have hc : (Char.ofNat (l.bits * 64 + n)).toNat = l.bits * 64 + n :=
          toNat_ofNat (by omega)
        have hfirst : (l.bits * 64 + n) / 64 % 32 + 0xC0 = b.toNat := by omega
        have hlast : (l.bits * 64 + n) % 64 = n % 64 := by omega
        refine ⟨[trailing n], later, ?_, rfl, rfl⟩
        rw [encodeChar_of_two (by omega) (by omega), hc, hfirst, UInt8.ofNat_toNat, trailing,
          trailing, hlast]
      · rw [howed] at h
        obtain ⟨m, later, hm, hmlow, hmhigh, rfl, hmore⟩ := exists_trailing hlow hhigh h
        obtain ⟨n, later, hn, -, -, rfl, hdone⟩ := exists_trailing (by omega) (by omega) hmore
        cases hdone
        have hc : (Char.ofNat ((l.bits * 64 + m) * 64 + n)).toNat = (l.bits * 64 + m) * 64 + n :=
          toNat_ofNat (by omega)
        have hfirst : ((l.bits * 64 + m) * 64 + n) / 4096 % 16 + 0xE0 = b.toNat := by omega
        have hsecond : ((l.bits * 64 + m) * 64 + n) / 64 % 64 = m % 64 := by omega
        have hlast : ((l.bits * 64 + m) * 64 + n) % 64 = n % 64 := by omega
        refine ⟨[trailing m, trailing n], later, ?_, rfl, rfl⟩
        rw [encodeChar_of_three (by omega) (by omega), hc, hfirst, UInt8.ofNat_toNat, trailing,
          trailing, trailing, trailing, hsecond, hlast]
      · rw [howed] at h
        obtain ⟨k, later, hk, hklow, hkhigh, rfl, hmore⟩ := exists_trailing hlow hhigh h
        obtain ⟨m, later, hm, -, -, rfl, hrest⟩ := exists_trailing (by omega) (by omega) hmore
        obtain ⟨n, later, hn, -, -, rfl, hdone⟩ := exists_trailing (by omega) (by omega) hrest
        cases hdone
        have hc : (Char.ofNat (((l.bits * 64 + k) * 64 + m) * 64 + n)).toNat
            = ((l.bits * 64 + k) * 64 + m) * 64 + n := toNat_ofNat (by omega)
        have hfirst : (((l.bits * 64 + k) * 64 + m) * 64 + n) / 262144 % 8 + 0xF0 = b.toNat := by
          omega
        have hsecond : (((l.bits * 64 + k) * 64 + m) * 64 + n) / 4096 % 64 = k % 64 := by omega
        have hthird : (((l.bits * 64 + k) * 64 + m) * 64 + n) / 64 % 64 = m % 64 := by omega
        have hlast : (((l.bits * 64 + k) * 64 + m) * 64 + n) % 64 = n % 64 := by omega
        refine ⟨[trailing k, trailing m, trailing n], later, ?_, rfl, rfl⟩
        rw [encodeChar_of_four (by omega), hc, hfirst, UInt8.ofNat_toNat, trailing, trailing,
          trailing, trailing, trailing, trailing, hsecond, hthird, hlast]

/-! ## Texts -/

theorem decodeFrom_encodeChar (start : Nat) (c : Char) (rest : List UInt8) :
    decodeFrom start (String.utf8EncodeChar c ++ rest)
      = (decodeFrom (start + (String.utf8EncodeChar c).length) rest).map (c :: ·) := by
  obtain ⟨b, more, hbytes, hfront⟩ := front_encodeChar c rest
  have hdrop : (more ++ rest).drop (more.length + 1 - 1) = rest := by
    rw [Nat.add_sub_cancel, List.drop_left]
  rw [hbytes, List.cons_append, decodeFrom, hfront]
  dsimp only
  rw [hdrop, List.length_cons]
  cases decodeFrom (start + (more.length + 1)) rest <;> rfl

/-- **The bytes of a text are decoded to the text.** -/
theorem decode_encode (t : Text) : decode (encode t) = .ok t := by
  have hfrom : ∀ start, decodeFrom start (encode t) = .ok t := by
    induction t with
    | nil => exact fun start => by rw [encode, List.flatMap_nil, decodeFrom]
    | cons c t ih =>
      intro start
      have hencode : encode (c :: t) = String.utf8EncodeChar c ++ encode t := List.flatMap_cons
      rw [hencode, decodeFrom_encodeChar, ih]
      rfl
  exact hfrom 0

/-- Bytes that are decoded are those of the text. -/
theorem eq_encode_of_decodeFrom {start : Nat} {bytes : List UInt8} {t : Text}
    (h : decodeFrom start bytes = .ok t) : bytes = encode t := by
  fun_induction decodeFrom start bytes generalizing t with
  | case1 start =>
    cases h
    rfl
  | case2 start b rest c width hfront ih =>
    obtain ⟨more, behind, hwritten, rfl, rfl⟩ := encodeChar_of_front hfront
    rw [Nat.add_sub_cancel, List.drop_left] at h ih
    cases hlater : decodeFrom (start + (more.length + 1)) behind with
    | error e =>
      rw [hlater] at h
      cases h
    | ok later =>
      rw [hlater] at h
      cases h
      have hencode : encode (c :: later) = String.utf8EncodeChar c ++ encode later :=
        List.flatMap_cons
      rw [hencode, hwritten, ← ih hlater, List.cons_append]
  | case3 start b rest reason width hfront => cases h

/-- **The bytes of a text are decoded to the text, and no others are.** -/
theorem decode_eq_ok_iff {bytes : List UInt8} {t : Text} :
    decode bytes = .ok t ↔ bytes = encode t :=
  ⟨eq_encode_of_decodeFrom, fun h => h ▸ decode_encode t⟩

theorem encode_injective : Function.Injective encode := fun t u h => by
  have ht := decode_encode t
  rw [h, decode_encode] at ht
  exact (Except.ok.inj ht).symm

/-- **Lenient decoding reads them in the same way:** no character is put for a fault. -/
theorem decodeLenient_encode (t : Text) : decodeLenient (encode t) = t := by
  unfold decodeLenient
  induction t with
  | nil => rw [encode, List.flatMap_nil, pieces, List.map_nil]
  | cons c t ih =>
    obtain ⟨b, more, hbytes, hfront⟩ := front_encodeChar c (encode t)
    have hencode : encode (c :: t) = b :: (more ++ encode t) := by
      rw [encode, List.flatMap_cons, hbytes]
      rfl
    have hdrop : (more ++ encode t).drop (more.length + 1 - 1) = encode t := by
      rw [Nat.add_sub_cancel, List.drop_left]
    rw [hencode, pieces, hfront, List.map_cons, Piece.width, hdrop, ih]

end GqlScan.Text.Utf8
