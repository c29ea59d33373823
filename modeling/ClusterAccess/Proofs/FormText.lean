/-
Forms, read as they were written.

A value of a query is written the way forms are, byte by byte: a plain character stands for itself,
a space becomes a plus sign, and every other byte is escaped.  This is one of the ways to write text
in a URL, and so every text comes back (`readForm?_formEncode`).

What is written has none of the marks that separate the parts of a target
(`isVisible_of_mem_formEncode`).
-/
import ClusterAccess.Kube.Http
import ClusterAccess.Proofs.UrlText

namespace ClusterAccess.Text

variable {c : Char} {bytes written : List UInt8}

/-! ### A form as text of a URL -/

theorem eq_of_ofNat_eq_space : ∀ n < 256, Char.ofNat n = ' ' → n = 32 := by
  decide +kernel

/-- What a form leaves as it is has no meaning in it. -/
theorem plain_of_isFormPlain : ∀ n < 128, isFormPlain (Char.ofNat n) = true →
    UInt8.ofNat n ≠ '%'.toUInt8 ∧ UInt8.ofNat n ≠ '+'.toUInt8 ∧
      String.utf8EncodeChar (Char.ofNat n) = [UInt8.ofNat n] := by
  decide +kernel

theorem hexDigitOf_mem : ∀ n < 16, (hexDigitOf true n, n) ∈ hexValues ∧
    String.utf8EncodeChar (hexDigitOf true n) = [(hexDigitOf true n).toUInt8] := by
  decide

/-- A form writes a byte in one of the ways of a URL. -/
theorem WrittenAs.cons_formByte (h : WrittenAs bytes written) (byte : UInt8) :
    WrittenAs (byte :: bytes)
      ((formByte byte).flatMap String.utf8EncodeChar ++ written) := by
  have hbyte : byte.toNat < 256 := byte.toNat_lt
  unfold formByte
  dsimp only
  split
  · next hspace =>
      have h32 : byte = 32 := UInt8.toNat_inj.1 (eq_of_ofNat_eq_space _ hbyte hspace)
      rw [h32]
      exact .space h
  · split
    · next hplain =>
        obtain ⟨hlow, hform⟩ := Bool.and_eq_true_iff.1 hplain
        obtain ⟨hpercent, hplus, hencode⟩ :=
          plain_of_isFormPlain _ (of_decide_eq_true hlow) hform
        rw [UInt8.ofNat_toNat] at hpercent hplus hencode
        rw [List.flatMap_singleton, hencode]
        exact .plain hpercent hplus h
    · have hhigh : byte.toNat / 16 < 16 := by omega
      have hlow : byte.toNat % 16 < 16 := by omega
      have hdigits : hexDigits true 2 byte.toNat =
          [hexDigitOf true (byte.toNat / 16), hexDigitOf true (byte.toNat % 16)] := by
        simp [hexDigits, Nat.mod_eq_of_lt hhigh]
      rw [hdigits, List.flatMap_cons, List.flatMap_cons, List.flatMap_singleton,
        (hexDigitOf_mem _ hhigh).2, (hexDigitOf_mem _ hlow).2]
      exact .escape (hexDigitOf_mem _ hhigh).1 (hexDigitOf_mem _ hlow).1 h

theorem writtenAs_flatMap_formByte (bytes : List UInt8) :
    WrittenAs bytes ((bytes.flatMap formByte).flatMap String.utf8EncodeChar) := by
  induction bytes with
  | nil => exact .nil
  | cons byte bytes ih =>
      rw [List.flatMap_cons, List.flatMap_append]
      exact ih.cons_formByte byte

/-- **Who reads a form gets the text that was written.** -/
theorem readForm?_formEncode (text : String) : readForm? (formEncode text) = some text :=
  readForm?_of_writtenAs (writtenAs_flatMap_formByte text.toUTF8.toList)

/-- A text without escapes and plus signs is read as it is. -/
theorem readForm?_of_plain {text : String} (h : text.toList.all (fun c => c != '%' && c != '+')) :
    readForm? text.toList = some text := by
  have hplain : ∀ plain : List Char, plain.all (fun c => c != '%' && c != '+') →
      WrittenAs (plain.flatMap String.utf8EncodeChar) (plain.flatMap String.utf8EncodeChar) := by
    intro plain hplain
    induction plain with
    | nil => exact .nil
    | cons c rest ih =>
        simp only [List.all_cons, Bool.and_eq_true, bne_iff_ne] at hplain
        obtain ⟨⟨hpercent, hplus⟩, hrest⟩ := hplain
        exact (ih hrest).plains (not_sign_of_mem_utf8EncodeChar hpercent hplus)
  refine readForm?_of_writtenAs ?_
  rw [toList_toUTF8]
  exact hplain _ h

/-! ### The characters of a form -/

/-- Can the character stand in a query, and is it not where the target ends? -/
def isVisible (c : Char) : Bool :=
  Kube.isQueryChar c && c != '#'

theorem isVisible_formByte :
    ∀ n < 256, (formByte (UInt8.ofNat n)).all (fun c => isVisible c && c != '&') = true := by
  decide +kernel

/-- What a form writes is visible, and separates nothing. -/
theorem isVisible_of_mem_formEncode {text : String} (h : c ∈ formEncode text) :
    isVisible c = true ∧ c ≠ '&' := by
  obtain ⟨byte, -, hc⟩ := List.mem_flatMap.1 h
  have hbyte := isVisible_formByte byte.toNat byte.toNat_lt
  rw [UInt8.ofNat_toNat] at hbyte
  simpa using List.all_eq_true.1 hbyte c hc

end ClusterAccess.Text
