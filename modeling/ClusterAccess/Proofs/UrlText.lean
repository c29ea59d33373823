/-
Text in a URL, read as what was written.

A URL may write any byte as an escape, with digits in either case, and most bytes as they are.  The
percent sign and the plus sign have to be escaped, because they have a meaning of their own, and a
space may be written as a plus sign.  So a text can be written in many ways (`WrittenAs`), and
nothing in them heeds where a character ends.

Who reads it turns the plus signs into spaces and then undoes the escapes, character by character.
This fits the bytes all the same: a character other than the two signs has none of their bytes,
so that all of its bytes stand for themselves, and an escape is three characters of one byte each.
Hence it makes no difference how a text was written (`unescape_of_writtenAs`).
-/
import Mathlib.Data.List.Basic
import ClusterAccess.TrustPolicy

namespace ClusterAccess

namespace Text

/-! ### Writing -/

/-- The hexadecimal digits with their values, in either case. -/
def hexValues : List (Char × Nat) :=
  "0123456789abcdef".toList.zipIdx ++ "ABCDEF".toList.zipIdx 10

/-- The ways to write bytes in a URL. -/
inductive WrittenAs : List UInt8 → List UInt8 → Prop
  | nil : WrittenAs [] []
  /-- A byte as it is, unless it is one of the two signs that have a meaning. -/
  | plain {byte : UInt8} {bytes written : List UInt8} (hpercent : byte ≠ '%'.toUInt8)
      (hplus : byte ≠ '+'.toUInt8) (hrest : WrittenAs bytes written) :
      WrittenAs (byte :: bytes) (byte :: written)
  /-- Any byte as its two digits, behind a percent sign. -/
  | escape {byte : UInt8} {high low : Char} {bytes written : List UInt8}
      (hhigh : (high, byte.toNat / 16) ∈ hexValues) (hlow : (low, byte.toNat % 16) ∈ hexValues)
      (hrest : WrittenAs bytes written) :
      WrittenAs (byte :: bytes) ('%'.toUInt8 :: high.toUInt8 :: low.toUInt8 :: written)
  /-- A space as a plus sign. -/
  | space {bytes written : List UInt8} (hrest : WrittenAs bytes written) :
      WrittenAs (' '.toUInt8 :: bytes) ('+'.toUInt8 :: written)

variable {c digit : Char} {value : Nat} {text : List Char} {bytes written lead : List UInt8}

/-- Bytes other than the two signs can be written as they are. -/
theorem WrittenAs.plains (hlead : ∀ byte ∈ lead, byte ≠ '%'.toUInt8 ∧ byte ≠ '+'.toUInt8)
    (h : WrittenAs bytes written) : WrittenAs (lead ++ bytes) (lead ++ written) := by
  induction lead with
  | nil => exact h
  | cons first lead ih =>
      obtain ⟨⟨hpercent, hplus⟩, hlead⟩ := List.forall_mem_cons.1 hlead
      exact .plain hpercent hplus (ih hlead)

/-- What is written with a percent sign in front is an escape. -/
theorem WrittenAs.of_percent (h : WrittenAs bytes ('%'.toUInt8 :: written)) :
    ∃ byte high low rest more, (high, byte.toNat / 16) ∈ hexValues ∧
      (low, byte.toNat % 16) ∈ hexValues ∧ bytes = byte :: rest ∧
        written = high.toUInt8 :: low.toUInt8 :: more ∧ WrittenAs rest more := by
  generalize hfirst : '%'.toUInt8 :: written = all at h
  cases h with
  | nil => cases hfirst
  | plain hpercent =>
      obtain ⟨rfl, -⟩ := List.cons.inj hfirst
      exact absurd rfl hpercent
  | escape hhigh hlow hrest =>
      obtain ⟨-, rfl⟩ := List.cons.inj hfirst
      exact ⟨_, _, _, _, _, hhigh, hlow, rfl, rfl, hrest⟩
  | space => exact absurd (List.cons.inj hfirst).1 (by decide)

/-- What is written with a plus sign in front has a space there. -/
theorem WrittenAs.of_plus (h : WrittenAs bytes ('+'.toUInt8 :: written)) :
    ∃ rest, bytes = ' '.toUInt8 :: rest ∧ WrittenAs rest written := by
  generalize hfirst : '+'.toUInt8 :: written = all at h
  cases h with
  | nil => cases hfirst
  | plain _ hplus =>
      obtain ⟨rfl, -⟩ := List.cons.inj hfirst
      exact absurd rfl hplus
  | escape => exact absurd (List.cons.inj hfirst).1 (by decide)
  | space hrest =>
      obtain ⟨-, rfl⟩ := List.cons.inj hfirst
      exact ⟨_, rfl, hrest⟩

/-- Where bytes other than the two signs are written, they stand for themselves. -/
theorem WrittenAs.of_plain (hlead : ∀ byte ∈ lead, byte ≠ '%'.toUInt8 ∧ byte ≠ '+'.toUInt8)
    (h : WrittenAs bytes (lead ++ written)) :
    ∃ rest, bytes = lead ++ rest ∧ WrittenAs rest written := by
  induction lead generalizing bytes with
  | nil => exact ⟨bytes, rfl, h⟩
  | cons first lead ih =>
      obtain ⟨⟨hpercent, hplus⟩, hlead⟩ := List.forall_mem_cons.1 hlead
      rw [List.cons_append] at h
      generalize hfirst : first :: (lead ++ written) = all at h
      cases h with
      | nil => cases hfirst
      | plain _ _ hrest =>
          obtain ⟨rfl, rfl⟩ := List.cons.inj hfirst
          obtain ⟨rest, rfl, hmore⟩ := ih hlead hrest
          exact ⟨rest, rfl, hmore⟩
      | escape => exact absurd (List.cons.inj hfirst).1 hpercent
      | space => exact absurd (List.cons.inj hfirst).1 hplus

/-! ### Characters and their bytes -/

theorem toNat_toUInt8 (hc : c.toNat < 128) : c.toUInt8.toNat = c.toNat := by
  show c.val.toUInt8.toNat = c.val.toNat
  rw [UInt32.toNat_toUInt8]
  exact Nat.mod_eq_of_lt (Nat.lt_trans hc (by decide))

/-- A character is one byte, or none of its bytes is a character of its own. -/
theorem utf8EncodeChar_cases (c : Char) :
    (c.toNat < 128 ∧ String.utf8EncodeChar c = [c.toUInt8]) ∨
      (128 ≤ c.toNat ∧ ∀ byte ∈ String.utf8EncodeChar c, 128 ≤ byte.toNat) := by
  by_cases hone : c.val.toNat ≤ 127
  · refine Or.inl ⟨Nat.lt_succ_of_le hone, ?_⟩
    unfold String.utf8EncodeChar
    rw [if_pos hone]
    rfl
  · refine Or.inr ⟨Nat.lt_of_not_le hone, ?_⟩
    unfold String.utf8EncodeChar
    rw [if_neg hone]
    split
    · simp; omega
    · split
      · simp; omega
      · simp; omega

/-- Where the first byte is that of a character, the character comes first. -/
theorem exists_cons_of_toUInt8 (hc : c.toNat < 128)
    (h : text.flatMap String.utf8EncodeChar = c.toUInt8 :: written) :
    ∃ rest, text = c :: rest ∧ rest.flatMap String.utf8EncodeChar = written := by
  cases text with
  | nil => cases h
  | cons first rest =>
      rw [List.flatMap_cons] at h
      rcases utf8EncodeChar_cases first with ⟨hsmall, hencode⟩ | ⟨-, hlarge⟩
      · rw [hencode, List.singleton_append] at h
        obtain ⟨hbyte, hrest⟩ := List.cons.inj h
        have hnat : first.toNat = c.toNat := by
          rw [← toNat_toUInt8 hsmall, ← toNat_toUInt8 hc, hbyte]
        exact ⟨rest, by rw [Char.toNat_inj.1 hnat], hrest⟩
      · exfalso
        cases hencode : String.utf8EncodeChar first with
        | nil =>
            have hlength := String.length_utf8EncodeChar first
            rw [hencode] at hlength
            exact absurd hlength.symm (Nat.ne_of_gt first.utf8Size_pos)
        | cons byte more =>
            rw [hencode, List.cons_append] at h
            have hbyte := hlarge byte (by rw [hencode]; exact List.mem_cons_self)
            rw [(List.cons.inj h).1, toNat_toUInt8 hc] at hbyte
            exact absurd hc (Nat.not_lt.2 hbyte)

/-- No byte of another character is one of the two signs. -/
theorem not_sign_of_mem_utf8EncodeChar (hpercent : c ≠ '%') (hplus : c ≠ '+') :
    ∀ byte ∈ String.utf8EncodeChar c, byte ≠ '%'.toUInt8 ∧ byte ≠ '+'.toUInt8 := by
  intro byte hbyte
  rcases utf8EncodeChar_cases c with ⟨hsmall, hencode⟩ | ⟨-, hlarge⟩
  · rw [hencode, List.mem_singleton] at hbyte
    have hsame : ∀ {sign : Char}, sign.toNat < 128 → byte = sign.toUInt8 → c = sign := by
      intro sign hsign heq
      apply Char.toNat_inj.1
      rw [← toNat_toUInt8 hsmall, ← toNat_toUInt8 hsign, ← hbyte, heq]
    exact ⟨fun h => hpercent (hsame (by decide) h), fun h => hplus (hsame (by decide) h)⟩
  · have hbound := hlarge byte hbyte
    refine ⟨?_, ?_⟩
    · rintro rfl
      exact absurd hbound (by decide)
    · rintro rfl
      exact absurd hbound (by decide)

/-! ### Reading -/

/-- A plus sign of a form is a space. -/
def spaced (text : List Char) : List Char :=
  text.map fun c => if c = '+' then ' ' else c

/-- The text that a form means. -/
def readForm? (text : List Char) : Option String :=
  percentDecode? (spaced text)

theorem hexDigit?_of_mem (h : (digit, value) ∈ hexValues) :
    hexDigit? digit = some value ∧ digit ≠ '+' ∧ digit.toNat < 128 := by
  have hall : ∀ entry ∈ hexValues,
      hexDigit? entry.1 = some entry.2 ∧ entry.1 ≠ '+' ∧ entry.1.toNat < 128 := by decide
  exact hall _ h

theorem unescape_cons (hc : c ≠ '%') (rest : List Char) :
    unescape (c :: rest) = String.utf8EncodeChar c ++ unescape rest := by
  rw [unescape]
  intro _ _ _ h
  exact absurd h hc

theorem spaced_cons (hplus : c ≠ '+') : spaced (c :: text) = c :: spaced text := by
  rw [spaced, List.map_cons, if_neg hplus]
  rfl

/-- **However bytes are written, they are what is read.** -/
theorem unescape_of_writtenAs {text : List Char} {bytes : List UInt8}
    (h : WrittenAs bytes (text.flatMap String.utf8EncodeChar)) :
    unescape (spaced text) = bytes := by
  cases text with
  | nil =>
      cases h
      rfl
  | cons c rest =>
      rw [List.flatMap_cons] at h
      by_cases hpercent : c = '%'
      · subst hpercent
        obtain ⟨byte, high, low, bytes, more, hhigh, hlow, rfl, hmore, hwritten⟩ := h.of_percent
        obtain ⟨hhigh, hhighplus, hhighsmall⟩ := hexDigit?_of_mem hhigh
        obtain ⟨hlow, hlowplus, hlowsmall⟩ := hexDigit?_of_mem hlow
        obtain ⟨rest, rfl, hrest⟩ := exists_cons_of_toUInt8 hhighsmall hmore
        obtain ⟨rest, rfl, rfl⟩ := exists_cons_of_toUInt8 hlowsmall hrest
        have hpercent : ('%' : Char) ≠ '+' := by decide
        rw [spaced_cons hpercent, spaced_cons hhighplus, spaced_cons hlowplus, unescape, hhigh, hlow]
        dsimp only
        rw [Nat.div_add_mod', UInt8.ofNat_toNat, unescape_of_writtenAs hwritten]
      · by_cases hplus : c = '+'
        · subst hplus
          obtain ⟨bytes, rfl, hwritten⟩ := h.of_plus
          rw [spaced, List.map_cons, if_pos rfl, unescape_cons (by decide)]
          exact congrArg _ (unescape_of_writtenAs hwritten)
        · obtain ⟨bytes, rfl, hwritten⟩ :=
            h.of_plain (not_sign_of_mem_utf8EncodeChar hpercent hplus)
          rw [spaced_cons hplus, unescape_cons hpercent, unescape_of_writtenAs hwritten]
termination_by text.length

/-! ### Whole texts -/

theorem toList_loop (bytes : ByteArray) (before : List UInt8) (i : Nat) :
    ByteArray.toList.loop bytes i before = before.reverse ++ bytes.data.toList.drop i := by
  rw [ByteArray.toList.loop]
  split
  · next hi =>
      have hget : bytes.get! i = bytes.data.toList[i] := getElem!_pos bytes.data i hi
      rw [toList_loop bytes _ (i + 1), List.drop_eq_getElem_cons hi, List.reverse_cons,
        List.append_assoc, hget]
      rfl
  · next hi => rw [List.drop_of_length_le (Nat.not_lt.1 hi), List.append_nil]
termination_by bytes.size - i

theorem toByteArray_toList (bytes : ByteArray) : bytes.toList.toByteArray = bytes := by
  apply ByteArray.ext
  rw [List.data_toByteArray, ByteArray.toList, toList_loop]
  simp

/-- Escapes that stand for the bytes of a text are read as the text. -/
theorem percentDecode?_of_bytes {text : List Char} {meant : String}
    (h : (unescape text).toByteArray = meant.toByteArray) : percentDecode? text = some meant := by
  unfold percentDecode? String.fromUTF8?
  rw [dif_pos (h ▸ meant.isValidUTF8)]
  exact congrArg some (String.toByteArray_inj.1 h)

theorem toList_toUTF8 (text : String) :
    text.toUTF8.toList = text.toList.flatMap String.utf8EncodeChar := by
  have hbytes : (text.toList.flatMap String.utf8EncodeChar).toByteArray = text.toByteArray :=
    String.toByteArray_ofList.symm.trans (congrArg _ String.ofList_toList)
  rw [String.toUTF8_eq_toByteArray, ← hbytes, ByteArray.toList, toList_loop,
    List.toList_data_toByteArray]
  rfl

/-- **However a text is written, it is what is read.** -/
theorem readForm?_of_writtenAs {raw : List Char} {text : String}
    (h : WrittenAs text.toUTF8.toList (raw.flatMap String.utf8EncodeChar)) :
    readForm? raw = some text := by
  refine percentDecode?_of_bytes ?_
  rw [unescape_of_writtenAs h, toByteArray_toList, String.toUTF8_eq_toByteArray]

end Text

namespace TrustPolicy

open Text

/-- **Whichever way a document is written in a URL, decoding gives the document.** -/
theorem decodeDocument_of_writtenAs {text raw : String}
    (h : WrittenAs text.toUTF8.toList raw.toUTF8.toList) : decodeDocument raw = .ok text := by
  rw [toList_toUTF8 raw] at h
  have hread : percentDecode? (raw.toList.map fun c => if c = '+' then ' ' else c) = some text :=
    readForm?_of_writtenAs h
  unfold decodeDocument
  rw [hread]

/-- One character is escaped with digits in both cases, another one is left as it is, and the three
spaces are written in three ways. -/
theorem decodeDocument_mixed_form :
    WrittenAs "é+%   €".toUTF8.toList "%c3%A9%2B%25+%20 €".toUTF8.toList ∧
      decodeDocument "%c3%A9%2B%25+%20 €" = .ok "é+%   €" := by
  have htext : "é+%   €".toUTF8.toList =
      [0xC3, 0xA9, 0x2B, 0x25, 0x20, 0x20, 0x20, 0xE2, 0x82, 0xAC] := by
    rw [toList_toUTF8]
    decide
  have hraw : "%c3%A9%2B%25+%20 €".toUTF8.toList =
      ("%c3%A9%2B%25+%20 ".toList.map Char.toUInt8) ++ [0xE2, 0x82, 0xAC] := by
    rw [toList_toUTF8]
    decide
  have hrest : WrittenAs ([0x20] ++ [0xE2, 0x82, 0xAC]) ([0x20] ++ [0xE2, 0x82, 0xAC]) :=
    .plain (by decide) (by decide) <| .plain (by decide) (by decide) <|
      .plain (by decide) (by decide) <| .plain (by decide) (by decide) .nil
  have h : WrittenAs "é+%   €".toUTF8.toList "%c3%A9%2B%25+%20 €".toUTF8.toList := by
    rw [htext, hraw]
    exact @WrittenAs.escape 0xC3 'c' '3' _ _ (by decide) (by decide) <|
      @WrittenAs.escape 0xA9 'A' '9' _ _ (by decide) (by decide) <|
      @WrittenAs.escape 0x2B '2' 'B' _ _ (by decide) (by decide) <|
      @WrittenAs.escape 0x25 '2' '5' _ _ (by decide) (by decide) <| .space <|
      @WrittenAs.escape 0x20 '2' '0' _ _ (by decide) (by decide) hrest
  exact ⟨h, decodeDocument_of_writtenAs h⟩

end TrustPolicy

end ClusterAccess
